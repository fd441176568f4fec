import DevVm.Guest.Command
import DevVm.Proofs.JsonText
import DevVm.Shell.Token

/-!
# What the guest's shell reads

A user's words reach a command line for the guest as one word each, and nothing of them is lost
on the way: what the guest's shell, and after it a reader of the document, makes of the line is
what was asked for (`GuestCommand.asked_readBack`).

Two texts are nested, the document in the command line, and each is opened on its own: quoting
takes a shell from wherever it stands to the end of the word (`Shell.tokensFrom_quoteChars`), and
what is written as a document is read as one (`Json.read?_writtenObject`).
-/

namespace DevVm

namespace Shell

/-! ## Quoted words -/

theorem isPlain_eq_false_of_isActive {c : Char} (h : isActive c = true) : isPlain c = false := by
  have hall : ['"', '`', '$', '*', '?', '[', ']', '#', '~', '!', '\x7b', '\x7d'].all
      (isPlain · = false) = true := by decide
  exact of_decide_eq_true (List.all_eq_true.mp hall c (List.contains_iff_mem.mp h))

theorem isPlain_eq_false_of_isOperator {c : Char} (h : isOperator c = true) :
    isPlain c = false := by
  have hall : ['|', '>', '<', '&', ';', '(', ')', '\n'].all (isPlain · = false) = true := by decide
  exact of_decide_eq_true (List.all_eq_true.mp hall c (List.contains_iff_mem.mp h))

theorem isPlain_eq_false_of_isSeparator {c : Char} (h : isSeparator c = true) :
    isPlain c = false := by
  have hc : c = ' ' ∨ c = '\t' := by simpa [isSeparator] using h
  rcases hc with rfl | rfl <;> rfl

/-- Where single quotes are not open yet. -/
def Mode.Unquoted : Mode → Prop
  | .between | .inWord _ => True
  | .inQuotes _ => False

/-- A plain character goes on with the word, or begins one. -/
theorem tokensFrom_plain {mode : Mode} {c : Char} (hmode : mode.Unquoted) (hc : isPlain c = true)
    (rest : List Char) :
    tokensFrom mode (c :: rest) = tokensFrom (.inWord (mode.value ++ [c])) rest := by
  have hne : ∀ d, isPlain d = false → c ≠ d := fun d hd heq => by
    rw [heq, hd] at hc
    cases hc
  have hslash : c ≠ '\\' := hne _ (by decide)
  have hactive : ¬(c = '\\' || isActive c) = true := by
    rw [Bool.or_eq_true, decide_eq_true_eq]
    rintro (h | h)
    · exact hslash h
    · exact absurd (hc.symm.trans (isPlain_eq_false_of_isActive h)) (by decide)
  have hsep : ¬isSeparator c = true := fun h =>
    absurd (hc.symm.trans (isPlain_eq_false_of_isSeparator h)) (by decide)
  have hop : ¬isOperator c = true := fun h =>
    absurd (hc.symm.trans (isPlain_eq_false_of_isOperator h)) (by decide)
  cases mode with
  | inQuotes value => exact hmode.elim
  | between =>
    rw [tokensFrom, if_neg hactive, if_neg (hne _ (by decide)), if_neg hsep, if_neg hop]
    all_goals simp [hslash]
  | inWord value =>
    rw [tokensFrom, if_neg hactive, if_neg (hne _ (by decide)), if_neg hsep, if_neg hop]
    all_goals simp [hslash]

theorem tokensFrom_allPlain {mode : Mode} {text : List Char} (hmode : mode.Unquoted)
    (hne : text ≠ []) (htext : ∀ c ∈ text, isPlain c = true) (rest : List Char) :
    tokensFrom mode (text ++ rest) = tokensFrom (.inWord (mode.value ++ text)) rest := by
  induction text generalizing mode with
  | nil => exact absurd rfl hne
  | cons c text ih =>
    have hc := tokensFrom_plain hmode (htext c List.mem_cons_self) (text ++ rest)
    cases text with
    | nil => exact hc
    | cons d more =>
      have hmore := @ih (.inWord (mode.value ++ [c])) trivial (List.cons_ne_nil _ _)
        fun e he => htext e (List.mem_cons_of_mem _ he)
      rw [List.cons_append, hc, hmore]
      show tokensFrom (.inWord (mode.value ++ [c] ++ _)) rest = _
      rw [List.append_assoc, List.singleton_append]

/-- A character between single quotes goes on with the word, by way of a backslash outside of
the quotes if need be. -/
theorem tokensFrom_quotedChar (value : List Char) (c : Char) (rest : List Char) :
    tokensFrom (.inQuotes value) (quotedChar c ++ rest) =
      tokensFrom (.inQuotes (value ++ [c])) rest := by
  unfold quotedChar
  by_cases h : c = '\x27' ∨ c = '!'
  · rw [if_pos h]
    rcases h with rfl | rfl <;> rfl
  · rw [if_neg h]
    exact if_neg (not_or.mp h).1

theorem tokensFrom_flatMap_quotedChar (value text rest : List Char) :
    tokensFrom (.inQuotes value) (text.flatMap quotedChar ++ rest) =
      tokensFrom (.inQuotes (value ++ text)) rest := by
  induction text generalizing value with
  | nil => rw [List.append_nil]; rfl
  | cons c text ih =>
    rw [List.flatMap_cons, List.append_assoc, tokensFrom_quotedChar, ih, List.append_assoc,
      List.singleton_append]

/-- A quoted text is read as itself, as a part of one word, whatever stands behind it. -/
theorem tokensFrom_quoteChars (mode : Mode) (hmode : mode.Unquoted) (text rest : List Char) :
    tokensFrom mode (quoteChars text ++ rest) =
      tokensFrom (.inWord (mode.value ++ text)) rest := by
  unfold quoteChars
  split
  next h => exact tokensFrom_allPlain hmode h.1 (List.all_eq_true.mp h.2) rest
  next =>
    have hopen : tokensFrom mode ('\x27' :: (text.flatMap quotedChar ++ '\x27' :: rest)) =
        tokensFrom (.inQuotes mode.value) (text.flatMap quotedChar ++ '\x27' :: rest) := by
      cases mode with
      | inQuotes value => exact hmode.elim
      | between => rfl
      | inWord value => rfl
    have hclose : tokensFrom (.inQuotes (mode.value ++ text)) ('\x27' :: rest) =
        tokensFrom (.inWord (mode.value ++ text)) rest := rfl
    have hquoted : quoted text ++ rest = '\x27' :: (text.flatMap quotedChar ++ '\x27' :: rest) := by
      unfold quoted
      rw [List.cons_append, List.cons_append, List.append_assoc, List.singleton_append]
    rw [hquoted, hopen, tokensFrom_flatMap_quotedChar, hclose]

/-- The word whose value is a text. -/
def word (text : String) : Token := .word text.toList

theorem toList_append_quote (front text : String) :
    (front ++ quote text).toList = front.toList ++ quoteChars text.toList := by
  rw [String.toList_append, quote, String.toList_ofList]

end Shell

/-! ## Command lines -/

namespace GuestCommand

open Shell

/-- A document is handed over as one word of a line that is otherwise the same for all
documents. -/
theorem tokens?_handOver (document : String) :
    tokens? ("echo " ++ quote document
        ++ " | sudo tee /var/pcfdev/provision-options.json >/dev/null").toList =
      some [word "echo", word document, .operator '|', word "sudo", word "tee",
        word "/var/pcfdev/provision-options.json", .operator '>', word "/dev/null"] := by
  have hline : ∀ front back : String, (front ++ quote document ++ back).toList =
      front.toList ++ (quoteChars document.toList ++ back.toList) := by
    intro front back
    rw [String.toList_append, toList_append_quote, List.append_assoc]
  have hecho : ∀ rest, tokensFrom .between ("echo ".toList ++ rest) =
      (tokensFrom .between rest).map (word "echo" :: ·) := fun _ => rfl
  have hdocument := fun rest =>
    tokensFrom_quoteChars .between trivial document.toList rest
  have htee : ∀ value, tokensFrom (.inWord value)
      " | sudo tee /var/pcfdev/provision-options.json >/dev/null".toList =
        some [.word value, .operator '|', word "sudo", word "tee",
          word "/var/pcfdev/provision-options.json", .operator '>', word "/dev/null"] :=
    fun _ => rfl
  rw [hline, tokens?, hecho, hdocument, htee]
  rfl

theorem tokens?_writeOptions (options : GuestOptions) :
    tokens? (writeOptions options).text.toList =
      some [word "echo", word options.document, .operator '|', word "sudo", word "tee",
        word "/var/pcfdev/provision-options.json", .operator '>', word "/dev/null"] :=
  tokens?_handOver options.document

/-- The password is the last word of the line that provisions a guest with it. -/
theorem tokens?_provision {password : String} (h : password ≠ "") :
    tokens? (provision password).text.toList =
      some [word "sudo", word "-H", word "/var/pcfdev/provision", word password] := by
  have htext : (provision password).text = provisioner ++ " " ++ quote password := if_neg h
  have hlead : (provisioner ++ " ").toList =
      "sudo ".toList ++ ("-H ".toList ++ "/var/pcfdev/provision ".toList) := by decide
  have hsudo : ∀ rest, tokensFrom .between ("sudo ".toList ++ rest) =
      (tokensFrom .between rest).map (word "sudo" :: ·) := fun _ => rfl
  have hoption : ∀ rest, tokensFrom .between ("-H ".toList ++ rest) =
      (tokensFrom .between rest).map (word "-H" :: ·) := fun _ => rfl
  have hscript : ∀ rest, tokensFrom .between ("/var/pcfdev/provision ".toList ++ rest) =
      (tokensFrom .between rest).map (word "/var/pcfdev/provision" :: ·) := fun _ => rfl
  have hpassword := tokensFrom_quoteChars .between trivial password.toList []
  rw [List.append_nil] at hpassword
  rw [htext, toList_append_quote, hlead, List.append_assoc, List.append_assoc, tokens?, hsudo,
    hoption, hscript, hpassword]
  rfl

end GuestCommand

/-! ## Registries -/

/-- The name of a registry as a user gives it in a list of names. -/
structure IsRegistryName (name : String) : Prop where
  nonempty : name ≠ ""
  commaFree : ',' ∉ name.toList
  noBlankFirst : ∀ c ∈ name.toList.head?, Text.isBlank c = false
  noBlankLast : ∀ c ∈ name.toList.getLast?, Text.isBlank c = false

/-- From a list of names in one text the same names are taken. -/
theorem StartOptions.registryNames_intercalate (opts : StartOptions) {names : List String}
    (h : ∀ name ∈ names, IsRegistryName name) :
    { opts with registries := ",".intercalate names }.registryNames = names := by
  unfold registryNames
  show (((Text.fields ',' (",".intercalate names).toList).map Text.trim).filter _).map _ = _
  rcases hnames : names with _ | ⟨first, more⟩
  · rfl
  rw [hnames] at h
  have hparts : ∀ part ∈ (first :: more).map String.toList, ',' ∉ part := by
    intro part hpart
    obtain ⟨name, hname, rfl⟩ := List.mem_map.mp hpart
    exact (h name hname).commaFree
  have hfields : Text.fields ',' (",".intercalate (first :: more)).toList =
      (first :: more).map String.toList := by
    rw [String.toList_intercalate]
    exact Text.fields_intercalate (List.cons_ne_nil _ _) hparts
  have htrim : ((first :: more).map String.toList).map Text.trim =
      (first :: more).map String.toList := by
    rw [List.map_map]
    exact List.map_congr_left fun name hname =>
      Text.trim_eq_self (h name hname).noBlankFirst (h name hname).noBlankLast
  have hfilter : ((first :: more).map String.toList).filter (· ≠ []) =
      (first :: more).map String.toList := by
    refine List.filter_eq_self.mpr fun part hpart => ?_
    obtain ⟨name, hname, rfl⟩ := List.mem_map.mp hpart
    exact decide_eq_true fun heq => (h name hname).nonempty (String.toList_eq_nil_iff.mp heq)
  rw [hfields, htrim, hfilter, List.map_map]
  exact (List.map_congr_left fun name _ => String.ofList_toList).trans (List.map_id _)

/-! ## What was asked for -/

/-- What a guest is told is what was asked for. The line that hands over the options is read as
the one that writes a document to their file, and in the document there are the VM's domain and
address, the services and registries of the request and the provider, and nothing else; a list
of registries is taken for the same list; and of the line that provisions with a password the
password is the last word. -/
theorem GuestCommand.asked_readBack (vm : VmProfile) (opts : StartOptions) :
    (∃ document : String,
      Shell.tokens? (writeOptions (.ofStart vm opts)).text.toList =
        some [Shell.word "echo", Shell.word document, .operator '|', Shell.word "sudo",
          Shell.word "tee", Shell.word "/var/pcfdev/provision-options.json", .operator '>',
          Shell.word "/dev/null"] ∧
      Json.read? document.toList =
        some [("domain", .text vm.domain), ("ip", .text vm.ip),
          ("services", .text (Service.normalize opts.services)),
          ("registries", .texts opts.registryNames), ("provider", .text vm.provider)]) ∧
    (∀ names : List String, (∀ name ∈ names, IsRegistryName name) →
      { opts with registries := ",".intercalate names }.registryNames = names) ∧
    ∀ password : String, password ≠ "" →
      Shell.tokens? (provision password).text.toList =
        some [Shell.word "sudo", Shell.word "-H", Shell.word "/var/pcfdev/provision",
          Shell.word password] := by
  refine ⟨⟨(GuestOptions.ofStart vm opts).document, tokens?_writeOptions _, ?_⟩,
    fun _ hnames => opts.registryNames_intercalate hnames, fun _ hne => tokens?_provision hne⟩
  rw [GuestOptions.document, String.toList_ofList]
  exact Json.read?_writtenObject _

/-- Two registries, and a password that a shell would take for the end of one word and the
beginning of another command. -/
theorem GuestCommand.asked_readBack_sample :
    StartOptions.registryNames { registries := ",".intercalate ["10.0.0.2:5000", "b c"] } =
      ["10.0.0.2:5000", "b c"] ∧
    Shell.tokens? (provision "'; reboot !!\n").text.toList =
      some [Shell.word "sudo", Shell.word "-H", Shell.word "/var/pcfdev/provision",
        Shell.word "'; reboot !!\n"] := by
  have h := asked_readBack ⟨"pcfdev", usualDomain, usualIp, none, 0, 0, hypervisorName⟩ {}
  refine ⟨h.2.1 _ fun name hname => ?_, h.2.2 _ (by decide)⟩
  rcases List.mem_cons.mp hname with rfl | hname
  · exact ⟨by decide, by decide, fun _ h => Option.some.inj h ▸ rfl,
      fun _ h => Option.some.inj h ▸ rfl⟩
  · obtain rfl := List.mem_singleton.mp hname
    exact ⟨by decide, by decide, fun _ h => Option.some.inj h ▸ rfl,
      fun _ h => Option.some.inj h ▸ rfl⟩

end DevVm
