import DevVm.Json.Reader

/-!
# What is written is read

Reading the JSON text of an object gives its members back, in their order and with nothing added
(`Json.read?_writtenObject`). As a reader makes two passes, so does the proof: the text of an
object spells its tokens, whatever stands behind them, and the tokens take the reader from the
beginning to the end of the object.
-/

namespace DevVm.Json

/-! ## Characters -/

theorem unit?_hexDigits : ∀ n < 0x20,
    unit? '0' '0' (hexDigit (n / 16)) (hexDigit (n % 16)) = some n := by decide

theorem tokensFrom_inText (value rest : List Char) {c : Char} (h : c ≠ '\\') :
    tokensFrom (.inText value) (c :: rest) =
      if c = '"' then (tokensFrom .between rest).map (.text (String.ofList value) :: ·)
      else if c = '\\' ∨ c.toNat < 0x20 then none
      else tokensFrom (.inText (value ++ [c])) rest := by
  rw [tokensFrom]
  · intro a b c d rest' heq
    exact absurd heq h
  · intro c' rest' heq
    exact absurd heq h

theorem tokensFrom_escaped (value rest : List Char) {c e : Char} (h : shortEscape? c = some e) :
    tokensFrom (.inText value) ('\\' :: c :: rest) = tokensFrom (.inText (value ++ [e])) rest := by
  rw [tokensFrom]
  · rw [h]
  · intro a b c' d rest' heq
    subst heq
    cases h

theorem tokensFrom_unit (value rest : List Char) {n : Nat} (h : n < 0x20) :
    tokensFrom (.inText value)
        ('\\' :: 'u' :: '0' :: '0' :: hexDigit (n / 16) :: hexDigit (n % 16) :: rest) =
      tokensFrom (.inText (value ++ [Char.ofNat n])) rest := by
  have hlead : isLead n = false := by
    unfold isLead
    simp only [Bool.and_eq_false_iff, decide_eq_false_iff_not]
    omega
  have htrail : isTrail n = false := by
    unfold isTrail
    simp only [Bool.and_eq_false_iff, decide_eq_false_iff_not]
    omega
  rw [tokensFrom, unit?_hexDigits n h]
  simp only [hlead, htrail, Bool.false_eq_true, if_false]

/-- However a character is written, inside a string it is read as itself. -/
theorem tokensFrom_writtenChar (value rest : List Char) (c : Char) :
    tokensFrom (.inText value) (writtenChar c ++ rest) =
      tokensFrom (.inText (value ++ [c])) rest := by
  unfold writtenChar
  split
  iterate 7 exact tokensFrom_escaped value rest rfl
  next hquote hslash _ _ _ _ _ =>
    by_cases hcontrol : c.toNat < 0x20
    · rw [if_pos hcontrol]
      have hunit := tokensFrom_unit value rest hcontrol
      rw [Char.ofNat_toNat] at hunit
      exact hunit
    · rw [if_neg hcontrol]
      have hplain : ¬(c = '\\' ∨ c.toNat < 0x20) := not_or.mpr ⟨hslash, hcontrol⟩
      have hchar := tokensFrom_inText value rest hslash
      rw [if_neg hquote, if_neg hplain] at hchar
      exact hchar

/-! ## Tokens -/

/-- A text spells tokens if a reader finds these in it, whatever stands behind it. -/
def Spells (text : List Char) (tokens : List Token) : Prop :=
  ∀ rest, tokensFrom .between (text ++ rest) = (tokensFrom .between rest).map (tokens ++ ·)

theorem Spells.append {text more : List Char} {tokens others : List Token}
    (h : Spells text tokens) (hmore : Spells more others) :
    Spells (text ++ more) (tokens ++ others) := by
  intro rest
  rw [List.append_assoc, h, hmore, Option.map_map]
  congr 1
  funext last
  exact (List.append_assoc ..).symm

theorem spells_mark {c : Char} (h : isMark c = true) : Spells [c] [.mark c] := by
  intro rest
  have hc : ∀ d, isMark d = false → c ≠ d := fun d hd heq => by
    subst heq
    exact absurd (h.symm.trans hd) (by decide)
  have hblank : isBlank c = false := by
    simp only [isBlank, Bool.or_eq_false_iff, decide_eq_false_iff_not]
    exact ⟨⟨⟨hc _ (by decide), hc _ (by decide)⟩, hc _ (by decide)⟩, hc _ (by decide)⟩
  rw [List.cons_append, List.nil_append, tokensFrom, if_neg (hc _ (by decide)), if_neg, if_pos h]
  · rfl
  · rw [hblank]
    decide

/-- What stands in a string is read up to its closing quote. -/
theorem tokensFrom_flatMap (value rest text : List Char) :
    tokensFrom (.inText value) (text.flatMap writtenChar ++ '"' :: rest) =
      (tokensFrom .between rest).map (.text (String.ofList (value ++ text)) :: ·) := by
  induction text generalizing value with
  | nil => rw [List.append_nil]; exact tokensFrom_inText value _ (by decide)
  | cons c text ih =>
    rw [List.flatMap_cons, List.append_assoc, tokensFrom_writtenChar, ih, List.append_assoc]
    rfl

theorem spells_writtenText (text : String) : Spells (writtenText text) [.text text] := by
  intro rest
  show tokensFrom .between ('"' :: text.toList.flatMap writtenChar ++ ['"'] ++ rest) = _
  rw [List.cons_append, List.cons_append, List.append_assoc, tokensFrom, if_pos rfl]
  show tokensFrom _ (_ ++ '"' :: rest) = _
  rw [tokensFrom_flatMap, List.nil_append, String.ofList_toList]
  rfl

/-- Tokens of parts with a comma between two neighbours. -/
def commaTokens : List (List Token) → List Token
  | [] => []
  | [part] => part
  | part :: more => part ++ .mark ',' :: commaTokens more

theorem spells_commaSeparated {α : Type} {written : α → List Char} {tokens : α → List Token}
    (h : ∀ a, Spells (written a) (tokens a)) (parts : List α) :
    Spells (commaSeparated (parts.map written)) (commaTokens (parts.map tokens)) := by
  match parts with
  | [] => intro rest; exact Option.map_id'.symm
  | [part] => exact h part
  | part :: next :: more =>
    have hmore := spells_commaSeparated h (next :: more)
    exact (h part).append ((spells_mark (c := ',') rfl).append hmore)

/-- The tokens of a member's value. -/
def Value.tokens : Value → List Token
  | .text value => [.text value]
  | .texts values => .mark '[' :: commaTokens (values.map ([.text ·])) ++ [.mark ']']

theorem Value.spells (value : Value) : Spells value.written value.tokens := by
  cases value with
  | text value => exact spells_writtenText value
  | texts values =>
    have hitems := spells_commaSeparated spells_writtenText values
    exact ((spells_mark (c := '[') rfl).append hitems).append (spells_mark rfl)

/-- The tokens of a member. -/
def memberTokens (member : String × Value) : List Token :=
  .text member.1 :: .mark ':' :: member.2.tokens

theorem spells_writtenObject (members : Members) :
    Spells (writtenObject members)
      (.mark '\x7b' :: commaTokens (members.map memberTokens) ++ [.mark '\x7d']) := by
  have hmember : ∀ member : String × Value,
      Spells (writtenText member.1 ++ ':' :: member.2.written) (memberTokens member) := by
    intro (name, value)
    exact (spells_writtenText name).append ((spells_mark (c := ':') rfl).append value.spells)
  have hmembers := spells_commaSeparated hmember members
  exact ((spells_mark (c := '\x7b') rfl).append hmembers).append (spells_mark rfl)

/-! ## Members -/

namespace Progress

/-- Tokens take a reader from one place in an object to another. -/
def Reads (here : Progress) (tokens : List Token) (there : Progress) : Prop :=
  tokens.foldlM step here = some there

theorem Reads.append {here there after : Progress} {tokens more : List Token}
    (h : Reads here tokens there) (hmore : Reads there more after) :
    Reads here (tokens ++ more) after := by
  unfold Reads at *
  rw [List.foldlM_append, h]
  exact hmore

theorem Reads.cons {here there after : Progress} {token : Token} {more : List Token}
    (h : here.step token = some there) (hmore : Reads there more after) :
    Reads here (token :: more) after := by
  unfold Reads at *
  rw [List.foldlM_cons, h]
  exact hmore

theorem reads_one {here there : Progress} {token : Token} (h : here.step token = some there) :
    Reads here [token] there :=
  .cons h rfl

/-- Parts of a list are read one after the other, be they items or members: `done` is where the
reader stands behind a part, `wanted` where it stands behind a comma. -/
theorem reads_commaTokens {α : Type} {tokens : α → List Token} {done wanted : List α → Progress}
    (hcomma : ∀ parts, (done parts).step (.mark ',') = some (wanted parts))
    (hnext : ∀ parts part, Reads (wanted parts) (tokens part) (done (parts ++ [part])))
    (parts more : List α) {part : α} {here : Progress}
    (hfirst : Reads here (tokens part) (done (parts ++ [part]))) :
    Reads here (commaTokens ((part :: more).map tokens)) (done (parts ++ part :: more)) := by
  induction more generalizing parts part here with
  | nil => exact hfirst
  | cons second more ih =>
    have hmore := ih (parts ++ [part]) (hnext (parts ++ [part]) second)
    rw [List.append_assoc] at hmore
    exact hfirst.append (.cons (hcomma _) hmore)

theorem reads_value (members : Members) (name : String) (value : Value) :
    Reads (assigned members name) value.tokens (complete (members ++ [(name, value)])) := by
  cases value with
  | text value => exact reads_one rfl
  | texts values =>
    cases values with
    | nil => exact .cons rfl (reads_one rfl)
    | cons item items =>
      have hnext : ∀ items item, Reads (wantingItem members name items) [.text item]
          (listed members name (items ++ [item])) := fun _ _ => reads_one rfl
      have hfirst : Reads (listing members name) [.text item] (listed members name [item]) :=
        reads_one rfl
      have hitems := reads_commaTokens (fun _ => rfl) hnext [] items hfirst
      exact (Reads.cons rfl hitems).append (reads_one rfl)

/-- A member is read where one may stand, which is where a string becomes its name. -/
theorem reads_member {here : Progress} (members : Members) {member : String × Value}
    (h : here.step (.text member.1) = some (named members member.1)) :
    Reads here (memberTokens member) (complete (members ++ [member])) :=
  .cons h (.cons rfl (reads_value members member.1 member.2))

theorem reads_object (members : Members) :
    Reads begun (.mark '\x7b' :: commaTokens (members.map memberTokens) ++ [.mark '\x7d'])
      (closed members) := by
  cases members with
  | nil => exact .cons rfl (reads_one rfl)
  | cons member more =>
    have hnext : ∀ members member, Reads (wanting members) (memberTokens member)
        (complete (members ++ [member])) := fun members _ => reads_member members rfl
    have hfirst : Reads opened (memberTokens member) (complete [member]) :=
      reads_member [] rfl
    have hmembers := reads_commaTokens (fun _ => rfl) hnext [] more hfirst
    exact (Reads.cons rfl hmembers).append (reads_one rfl)

end Progress

/-- Reading the text of an object gives back its members. -/
theorem read?_writtenObject (members : Members) : read? (writtenObject members) = some members := by
  have htokens := spells_writtenObject members []
  rw [List.append_nil] at htokens
  have hreads := Progress.reads_object members
  unfold Progress.Reads at hreads
  unfold read?
  rw [htokens]
  simp only [tokensFrom, Option.map_some, List.append_nil, Option.bind_eq_bind, Option.bind_some,
    hreads]
  rfl

end DevVm.Json
