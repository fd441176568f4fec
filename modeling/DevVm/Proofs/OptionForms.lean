import DevVm.CommandLine.Reader
import Mathlib.Data.List.Infix

/-!
# Ways to give an option

An option is found by its name or its letter where it may stand, and its value is attached to it or
follows as the next argument (`GivesFlag`, `GivesValue`). In its long form (`Opt.written`) it does
not matter what the value looks like: dashes, blanks and equals signs in it mean nothing.

Nothing that was read is ever dropped (`takeBehind_keeps`), every argument has its turn
(`takeBehind_at`), and no option is read where it may not stand (`takeFront_at`). So an option that
is given anywhere is among those that have been read in the end.
-/

namespace DevVm.CommandLine

/-! ## Names of options -/

namespace Opt

variable {o : Opt} {place : Option Subcommand}

theorem mem_all (o : Opt) : o ∈ all := by cases o <;> decide

/-- An option is found by what no other option has in common with it, where it is allowed. -/
theorem find?_allowed {wanted : Opt → Bool} (h : ∀ other, wanted other = true ↔ other = o) :
    (all.filter (allowed place)).find? wanted = if allowed place o then some o else none := by
  split
  next hallowed =>
    cases hfound : (all.filter (allowed place)).find? wanted with
    | none =>
      have hmem := List.mem_filter.mpr ⟨mem_all o, hallowed⟩
      exact absurd ((h o).mpr rfl) (List.find?_eq_none.mp hfound o hmem)
    | some other => rw [(h other).mp (List.find?_some hfound)]
  next hallowed =>
    refine List.find?_eq_none.mpr fun other hmem hwanted => hallowed ?_
    rw [← (h other).mp hwanted]
    exact (List.mem_filter.mp hmem).2

theorem long_inj {other : Opt} (h : other.long = o.long) : other = o := by
  have hall : ∀ a ∈ all, ∀ b ∈ all, a.long = b.long → a = b := by decide
  exact hall _ (mem_all _) _ (mem_all _) h

theorem letter_inj {other : Opt} {c : Char} (hother : other.letter? = some c)
    (h : o.letter? = some c) : other = o := by
  have hall : ∀ a ∈ all, ∀ b ∈ all, a.letter?.isSome → a.letter? = b.letter? → a = b := by decide
  exact hall _ (mem_all _) _ (mem_all _) (by rw [hother]; rfl) (hother.trans h.symm)

theorem ofLong?_long (o : Opt) (place : Option Subcommand) :
    ofLong? place o.long.toList = if allowed place o then some o else none :=
  find?_allowed fun other => by
    rw [decide_eq_true_iff, String.toList_inj]
    exact ⟨long_inj, fun h => h ▸ rfl⟩

theorem ofLetter?_letter {c : Char} (h : o.letter? = some c) (place : Option Subcommand) :
    ofLetter? place c = if allowed place o then some o else none :=
  find?_allowed fun other => by
    rw [decide_eq_true_iff]
    exact ⟨fun hother => letter_inj hother h, fun heq => heq ▸ h⟩

end Opt

/-! ## Arguments in their turn -/

section Turns

variable {arg : String} {rest : List String} {given : Given}

/-- No subcommand starts with a dash. -/
theorem ofName?_of_dash {letters : List Char} (h : arg.toList = '-' :: letters) :
    Subcommand.ofName? arg = none := by
  refine List.find?_eq_none.mpr fun sub _ hname => ?_
  have hdash : sub.name.toList.head? = some '-' := by
    rw [of_decide_eq_true hname, h]
    rfl
  revert hdash
  cases sub <;> decide

theorem takeFront_cons (hname : Subcommand.ofName? arg = none) (hdashes : arg ≠ "--") :
    takeFront given (arg :: rest) =
      given.takeArgument none arg .noSuchCommand >>= fun given => takeFront given rest := by
  have hnone : (if given.awaitsValue then none else Subcommand.ofName? arg) = none := by
    split
    · rfl
    · exact hname
  conv_lhs => rw [takeFront.eq_def]
  dsimp only
  rw [hnone]
  exact if_neg hdashes

theorem takeBehind_cons {sub : Subcommand} (hdashes : arg ≠ "--") :
    takeBehind sub given (arg :: rest) =
      given.takeArgument (some sub) arg .unknownArgument >>= fun given =>
        takeBehind sub given rest := by
  rw [takeBehind]
  exact if_neg hdashes

end Turns

/-! ## Options as they are written -/

/-- An option in its long form: a flag as it is, and any other option with its value behind an
equals sign. -/
def Opt.written (o : Opt) (value : String) : String :=
  if o.takesValue then "--" ++ o.long ++ "=" ++ value else "--" ++ o.long

section Written

variable {o : Opt} {value : String} {place : Option Subcommand}

theorem Opt.long_eq_cons (o : Opt) : ∃ c rest, o.long.toList = c :: rest ∧ '=' ∉ o.long.toList := by
  cases o <;> exact ⟨_, _, rfl, by decide⟩

theorem Opt.toList_written (o : Opt) (value : String) : (o.written value).toList =
    '-' :: '-' :: (o.long.toList ++ if o.takesValue then '=' :: value.toList else []) := by
  unfold written
  split <;> simp [String.toList_append]

theorem Opt.written_ne_dashes (o : Opt) (value : String) : o.written value ≠ "--" := by
  obtain ⟨c, rest, hlong, -⟩ := o.long_eq_cons
  intro h
  have hlist := congrArg String.toList h
  rw [toList_written, hlong] at hlist
  simp at hlist

/-- The shape of an option that is written: its name, and its value if it takes one. -/
theorem shape_written (o : Opt) (value : String) : Shape.of (o.written value).toList =
    .long o.long.toList (if o.takesValue then some value.toList else none) := by
  obtain ⟨c, rest, hlong, hequals⟩ := o.long_eq_cons
  have hcut : Text.cutAt '=' (o.long.toList ++ if o.takesValue then '=' :: value.toList else []) =
      if o.takesValue then some (o.long.toList, value.toList) else none := by
    split
    · exact Text.cutAt_append hequals _
    · rw [List.append_nil]
      exact Text.cutAt_eq_none_iff.mpr hequals
  rw [Opt.toList_written, Shape.of]
  · rw [hcut]
    cases o.takesValue
    · exact congrArg (Shape.long · none) (List.append_nil _)
    · rfl
  · rw [hlong]
    exact nofun

/-- An option that is given by its name counts where it may stand. -/
theorem takeLong_name (text : Option (List Char)) (given : Given) :
    given.takeLong place o.long.toList text =
      if o.allowed place then
        match text with
        | some text =>
          if o.takesValue then given.take o (String.ofList text) else .error .valueUnwanted
        | none => if o.takesValue then given.leaveOpen o else given.take o ""
      else .error .unknownArgument := by
  unfold Given.takeLong
  rw [Opt.ofLong?_long]
  cases o.allowed place
  · rfl
  · cases text <;> rfl

/-- What is written counts as an option with its value. -/
theorem takeArgument_written (hvalue : o.takesValue = false → value = "") (stray : UsageError)
    (given : Given) : given.takeArgument place (o.written value) stray =
      if o.allowed place then given.take o value else .error .unknownArgument := by
  unfold Given.takeArgument
  rw [shape_written]
  dsimp only
  rw [takeLong_name]
  cases htakes : o.takesValue
  · simp [hvalue htakes]
  · simp

end Written

/-! ## Nothing is dropped -/

/-- What has been read only grows, by options with values that they can have. -/
structure Given.Grows (given later : Given) : Prop where
  options : given.options <+: later.options
  accepted : ∀ entry ∈ later.options, entry ∈ given.options ∨ entry.1.accepts entry.2 = true

/-- A value that does not count yet has been counted. -/
def Given.Counted (given later : Given) : Prop :=
  ∀ o value, given.pending = .holding o value → (o, value) ∈ later.options

section Growing

variable {given later final : Given} {o : Opt} {value arg : String} {letters : List Char}
  {place : Option Subcommand} {stray : UsageError} {sub : Subcommand} {args : List String}

theorem Given.Grows.refl (given : Given) : given.Grows given := ⟨List.prefix_refl _, fun _ => .inl⟩

theorem Given.Grows.trans (h : given.Grows later) (h' : later.Grows final) :
    given.Grows final where
  options := h.options.trans h'.options
  accepted := fun entry hentry => (h'.accepted entry hentry).elim (h.accepted entry) .inr

theorem Given.Grows.mem (h : given.Grows later) (hmem : (o, value) ∈ given.options) :
    (o, value) ∈ later.options := h.options.subset hmem

theorem grows_assign (h : given.assign o value = .ok later) :
    given.Grows later ∧ (o, value) ∈ later.options := by
  unfold Given.assign at h
  split at h
  · cases h
  · cases h
  split at h
  · cases h
  split at h
  · cases h
  next haccepts =>
    cases h
    refine ⟨⟨List.prefix_append _ _, fun entry hentry => ?_⟩,
      List.mem_append_right _ (List.mem_singleton_self _)⟩
    refine (List.mem_append.mp hentry).imp_right fun hnew => ?_
    rw [List.mem_singleton.mp hnew]
    simpa using haccepts

theorem grows_settle (h : given.settle = .ok later) : given.Grows later ∧ given.Counted later := by
  unfold Given.settle at h
  split at h
  next hpending =>
    cases h
    exact ⟨.refl _, fun o value hholding => by rw [hpending] at hholding; cases hholding⟩
  next => cases h
  next o value hpending =>
    obtain ⟨hgrows, hmem⟩ := grows_assign h
    refine ⟨⟨hgrows.options, hgrows.accepted⟩, fun o' value' hholding => ?_⟩
    rw [hpending] at hholding
    cases hholding
    exact hmem

theorem grows_take (h : given.take o value = .ok later) :
    given.Grows later ∧ given.Counted later ∧ (o, value) ∈ later.options := by
  obtain ⟨settled, hsettle, hassign⟩ := exists_of_bind_ok h
  obtain ⟨hgrows, hcounted⟩ := grows_settle hsettle
  obtain ⟨hmore, hmem⟩ := grows_assign hassign
  exact ⟨hgrows.trans hmore, fun o value hholding => hmore.mem (hcounted o value hholding), hmem⟩

theorem grows_leaveOpen (h : given.leaveOpen o = .ok later) :
    given.Grows later ∧ given.Counted later ∧ later.pending = .awaiting o := by
  obtain ⟨settled, hsettle, hopen⟩ := exists_of_bind_ok h
  obtain ⟨hgrows, hcounted⟩ := grows_settle hsettle
  cases hopen
  exact ⟨⟨hgrows.options, hgrows.accepted⟩, hcounted, rfl⟩

theorem grows_takeLong {name : List Char} {value : Option (List Char)}
    (h : given.takeLong place name value = .ok later) :
    given.Grows later ∧ given.Counted later := by
  unfold Given.takeLong at h
  split at h
  · cases h
  · split at h
    · exact ⟨(grows_take h).1, (grows_take h).2.1⟩
    · cases h
  · split at h
    · exact ⟨(grows_leaveOpen h).1, (grows_leaveOpen h).2.1⟩
    · exact ⟨(grows_take h).1, (grows_take h).2.1⟩

theorem grows_takeCluster (h : given.takeCluster place letters = .ok later) :
    given.Grows later ∧ (letters ≠ [] → given.Counted later) := by
  induction letters generalizing given with
  | nil =>
    cases h
    exact ⟨.refl _, fun hne => absurd rfl hne⟩
  | cons c rest ih =>
    unfold Given.takeCluster at h
    split at h
    · cases h
    split at h
    · split at h
      · exact ⟨(grows_leaveOpen h).1, fun _ => (grows_leaveOpen h).2.1⟩
      · exact ⟨(grows_take h).1, fun _ => (grows_take h).2.1⟩
      · exact ⟨(grows_take h).1, fun _ => (grows_take h).2.1⟩
    · obtain ⟨mid, htake, hrest⟩ := exists_of_bind_ok h
      obtain ⟨hgrows, hcounted, -⟩ := grows_take htake
      have hmore := (ih hrest).1
      exact ⟨hgrows.trans hmore, fun _ o value hholding => hmore.mem (hcounted o value hholding)⟩

theorem grows_takePlain (h : given.takePlain arg stray = .ok later) :
    given.Grows later ∧ given.Counted later := by
  unfold Given.takePlain at h
  split at h
  next o hpending =>
    cases h
    refine ⟨⟨List.prefix_refl _, fun _ => .inl⟩, fun o value hholding => ?_⟩
    rw [hpending] at hholding
    cases hholding
  next => cases h

/-- A cluster has letters. -/
theorem ne_nil_of_cluster {text : List Char} (h : Shape.of text = .cluster letters) :
    letters ≠ [] := by
  unfold Shape.of at h
  split at h
  · cases h
  · split at h <;> cases h
  · cases h
    exact nofun
  · cases h

/-- No argument makes the reader drop what it has read. -/
theorem takeArgument_keeps (h : given.takeArgument place arg stray = .ok later) :
    given.Grows later ∧ given.Counted later := by
  unfold Given.takeArgument at h
  split at h
  next => exact grows_takeLong h
  next hshape =>
    obtain ⟨hgrows, hcounted⟩ := grows_takeCluster h
    exact ⟨hgrows, hcounted (ne_nil_of_cluster hshape)⟩
  next => exact grows_takePlain h
  next => exact grows_takePlain h

/-- What has been read behind a subcommand is there at the end. -/
theorem takeBehind_keeps (h : takeBehind sub given args = .ok final) :
    given.Grows final ∧ given.Counted final := by
  induction args generalizing given with
  | nil => exact grows_settle h
  | cons arg rest ih =>
    by_cases hdashes : arg = "--"
    · rw [takeBehind, if_pos hdashes] at h
      split at h
      · exact grows_settle h
      · cases h
    · rw [takeBehind_cons hdashes] at h
      obtain ⟨mid, htake, hrest⟩ := exists_of_bind_ok h
      obtain ⟨hgrows, hcounted⟩ := takeArgument_keeps htake
      have hmore := (ih hrest).1
      exact ⟨hgrows.trans hmore, fun o value hholding => hmore.mem (hcounted o value hholding)⟩

/-- Every argument behind a subcommand has its turn. -/
theorem takeBehind_at {before after : List String}
    (h : takeBehind sub given (before ++ arg :: after) = .ok final) (hdashes : arg ≠ "--") :
    ∃ mid next : Given, mid.takeArgument (some sub) arg .unknownArgument = .ok next ∧
      takeBehind sub next after = .ok final := by
  induction before generalizing given with
  | nil =>
    rw [List.nil_append, takeBehind_cons hdashes] at h
    exact ⟨given, exists_of_bind_ok h⟩
  | cons first before ih =>
    by_cases hfirst : first = "--"
    · -- Behind two dashes there may be nothing.
      rw [List.cons_append, takeBehind, if_pos hfirst, if_neg (by simp)] at h
      cases h
    · rw [List.cons_append, takeBehind_cons hfirst] at h
      obtain ⟨mid, -, hrest⟩ := exists_of_bind_ok h
      exact ih hrest

/-- An argument that is never taken before a subcommand stands behind it. -/
theorem takeFront_at {before after rest : List String} {front : Given}
    (h : takeFront given (before ++ arg :: after) = .ok (front, sub, rest))
    (hname : Subcommand.ofName? arg = none) (hdashes : arg ≠ "--")
    (hnever : ∀ given later : Given, given.takeArgument none arg .noSuchCommand ≠ .ok later) :
    ∃ before', rest = before' ++ arg :: after := by
  induction before generalizing given with
  | nil =>
    rw [List.nil_append, takeFront_cons hname hdashes] at h
    obtain ⟨mid, htake, -⟩ := exists_of_bind_ok h
    exact absurd htake (hnever given mid)
  | cons first before ih =>
    rw [List.cons_append, takeFront.eq_def] at h
    dsimp only at h
    split at h
    · cases h
      exact ⟨before, rfl⟩
    split at h
    · split at h <;> cases h
    · obtain ⟨mid, -, hrest⟩ := exists_of_bind_ok h
      exact ih hrest

end Growing

/-! ## Ways to give an option -/

/-- Letters of flags, which may stand before another letter behind one dash. -/
def AreFlags (letters : List Char) : Prop :=
  ∀ c ∈ letters, ∃ o : Opt, o.letter? = some c ∧ o.takesValue = false

/-- An argument that gives a flag: by its name, or by its letter, perhaps among others. -/
inductive GivesFlag (o : Opt) : String → Prop
  | name : GivesFlag o ("--" ++ o.long)
  | letter {c : Char} {before after : List Char} (hc : o.letter? = some c)
      (hbefore : AreFlags before) : GivesFlag o (String.ofList ('-' :: (before ++ c :: after)))

/-- Arguments that give an option a value: attached to its name or its letter, with or without an
equals sign, or as the next argument. -/
inductive GivesValue (o : Opt) (value : String) : List String → Prop
  | name : GivesValue o value ["--" ++ o.long ++ "=" ++ value]
  | nameNext : GivesValue o value ["--" ++ o.long, value]
  | letter {c : Char} {before : List Char} (hc : o.letter? = some c) (hbefore : AreFlags before) :
      GivesValue o value [String.ofList ('-' :: (before ++ c :: value.toList))]
  | letterEquals {c : Char} {before : List Char} (hc : o.letter? = some c)
      (hbefore : AreFlags before) :
      GivesValue o value [String.ofList ('-' :: (before ++ c :: '=' :: value.toList))]
  | letterNext {c : Char} {before : List Char} (hc : o.letter? = some c)
      (hbefore : AreFlags before) :
      GivesValue o value [String.ofList ('-' :: (before ++ [c])), value]

/-- An argument that is an option with its value, or an option whose value is to follow, and that
is taken only where the option may stand. -/
structure Gives (o : Opt) (value arg : String) (behind : List String) : Prop where
  dash : ∃ letters, arg.toList = '-' :: letters
  dashes : arg ≠ "--"
  taken : ∀ place stray (given later : Given), given.takeArgument place arg stray = .ok later →
    o.allowed place = true ∧
      (behind = [] ∧ (o, value) ∈ later.options ∨ behind = [value] ∧ later.pending = .awaiting o)

section Giving

variable {o : Opt} {value arg : String} {c : Char} {before rest : List Char}
  {given later final : Given} {place : Option Subcommand} {stray : UsageError}

theorem Opt.letter_ne_dash (h : o.letter? = some c) : c ≠ '-' := by
  rintro rfl
  cases o <;> cases h

/-- Letters of options behind one dash are a cluster. -/
theorem shape_cluster (hc : o.letter? = some c) (hbefore : AreFlags before) :
    Shape.of ('-' :: (before ++ c :: rest)) = .cluster (before ++ c :: rest) := by
  have hshape {first : Char} {more : List Char} (h : first ≠ '-') :
      Shape.of ('-' :: first :: more) = .cluster (first :: more) := by
    rw [Shape.of] <;> exact fun heq => absurd heq h
  cases before with
  | nil => exact hshape (Opt.letter_ne_dash hc)
  | cons first before =>
    obtain ⟨other, hother, -⟩ := hbefore first List.mem_cons_self
    exact hshape (Opt.letter_ne_dash hother)

/-- The letter of an option counts where the option may stand. -/
theorem takeCluster_cons (hc : o.letter? = some c) :
    given.takeCluster place (c :: rest) =
      if o.allowed place then
        if o.takesValue then
          match rest with
          | [] => given.leaveOpen o
          | '=' :: value => given.take o (String.ofList value)
          | value => given.take o (String.ofList value)
        else given.take o "" >>= fun given => given.takeCluster place rest
      else .error .unknownArgument := by
  rw [Given.takeCluster, Opt.ofLetter?_letter hc]
  cases o.allowed place <;> rfl

/-- The flags at the front of a cluster are taken before the rest. -/
theorem takeCluster_append (hbefore : AreFlags before)
    (h : given.takeCluster place (before ++ rest) = .ok later) :
    ∃ mid : Given, mid.takeCluster place rest = .ok later := by
  induction before generalizing given with
  | nil => exact ⟨given, h⟩
  | cons first before ih =>
    obtain ⟨hfirst, hmore⟩ := List.forall_mem_cons.mp hbefore
    obtain ⟨other, hother, hflag⟩ := hfirst
    rw [List.cons_append, takeCluster_cons hother, hflag] at h
    split at h
    · obtain ⟨mid, -, hrest⟩ := exists_of_bind_ok h
      exact ih hmore hrest
    · cases h

/-- A cluster is taken letter by letter. -/
theorem takeArgument_cluster (hc : o.letter? = some c) (hbefore : AreFlags before)
    (h : given.takeArgument place (String.ofList ('-' :: (before ++ c :: rest))) stray =
      .ok later) : ∃ mid : Given, mid.takeCluster place (c :: rest) = .ok later := by
  unfold Given.takeArgument at h
  rw [String.toList_ofList, shape_cluster hc hbefore] at h
  exact takeCluster_append hbefore h

theorem cluster_ne_dashes (hc : o.letter? = some c) (hbefore : AreFlags before) :
    String.ofList ('-' :: (before ++ c :: rest)) ≠ "--" := by
  intro h
  have hshape : Shape.of ('-' :: (before ++ c :: rest)) = _ := shape_cluster hc hbefore
  rw [← String.toList_ofList (l := '-' :: _), h] at hshape
  cases hshape

/-- The shape of an option's name. -/
theorem shape_name (o : Opt) : Shape.of ("--" ++ o.long).toList = .long o.long.toList none := by
  cases o <;> decide

theorem gives_written (hvalue : o.takesValue = false → value = "") :
    Gives o value (o.written value) [] where
  dash := ⟨_, Opt.toList_written o value⟩
  dashes := Opt.written_ne_dashes o value
  taken := fun place stray given later h => by
    rw [takeArgument_written hvalue] at h
    split at h
    next hallowed => exact ⟨hallowed, .inl ⟨rfl, (grows_take h).2.2⟩⟩
    next => cases h

theorem gives_name (htakes : o.takesValue = true) : Gives o value ("--" ++ o.long) [value] where
  dash := ⟨_, String.toList_append⟩
  dashes := by cases o <;> decide
  taken := fun place stray given later h => by
    unfold Given.takeArgument at h
    rw [shape_name] at h
    dsimp only at h
    rw [takeLong_name, htakes] at h
    split at h
    next hallowed => exact ⟨hallowed, .inr ⟨rfl, (grows_leaveOpen h).2.2⟩⟩
    next => cases h

/-- An option that is given by its letter, whatever the rest of the cluster gives it. -/
theorem gives_cluster {behind : List String} (hc : o.letter? = some c) (hbefore : AreFlags before)
    (htaken : ∀ place (given later : Given), o.allowed place = true →
      given.takeCluster place (c :: rest) = .ok later →
        behind = [] ∧ (o, value) ∈ later.options ∨
          behind = [value] ∧ later.pending = .awaiting o) :
    Gives o value (String.ofList ('-' :: (before ++ c :: rest))) behind where
  dash := ⟨_, String.toList_ofList⟩
  dashes := cluster_ne_dashes hc hbefore
  taken := fun place stray given later h => by
    obtain ⟨mid, hcluster⟩ := takeArgument_cluster hc hbefore h
    by_cases hallowed : o.allowed place = true
    · exact ⟨hallowed, htaken place mid later hallowed hcluster⟩
    · rw [takeCluster_cons hc, if_neg hallowed] at hcluster
      cases hcluster

theorem gives_of_givesFlag (hflag : o.takesValue = false) (h : GivesFlag o arg) :
    Gives o "" arg [] := by
  cases h with
  | name =>
    have hwritten : "--" ++ o.long = o.written "" := by rw [Opt.written, hflag]; rfl
    exact hwritten ▸ gives_written fun _ => rfl
  | letter hc hbefore =>
    refine gives_cluster hc hbefore fun place given later hallowed h => .inl ⟨rfl, ?_⟩
    rw [takeCluster_cons hc, if_pos hallowed, hflag] at h
    obtain ⟨next, htake, hrest⟩ := exists_of_bind_ok h
    exact (grows_takeCluster hrest).1.mem (grows_take htake).2.2

theorem gives_of_givesValue {form : List String} (htakes : o.takesValue = true)
    (hempty : value.toList ≠ []) (hequals : value.toList.head? ≠ some '=')
    (h : GivesValue o value form) :
    ∃ arg behind, form = arg :: behind ∧ Gives o value arg behind := by
  cases h with
  | name =>
    have hwritten : "--" ++ o.long ++ "=" ++ value = o.written value := by
      rw [Opt.written, htakes]
      rfl
    refine ⟨_, _, rfl, hwritten ▸ gives_written fun hflag => ?_⟩
    rw [htakes] at hflag
    cases hflag
  | nameNext => exact ⟨_, _, rfl, gives_name htakes⟩
  | letter hc hbefore =>
    refine ⟨_, _, rfl, gives_cluster hc hbefore fun place given later hallowed h =>
      .inl ⟨rfl, ?_⟩⟩
    rw [takeCluster_cons hc, if_pos hallowed, htakes, if_pos rfl] at h
    split at h
    next hnil => exact absurd hnil hempty
    next heq => exact absurd (congrArg List.head? heq) hequals
    next =>
      rw [String.ofList_toList] at h
      exact (grows_take h).2.2
  | letterEquals hc hbefore =>
    refine ⟨_, _, rfl, gives_cluster hc hbefore fun place given later hallowed h =>
      .inl ⟨rfl, ?_⟩⟩
    rw [takeCluster_cons hc, if_pos hallowed, htakes, if_pos rfl] at h
    have htake : given.take o (String.ofList value.toList) = .ok later := h
    rw [String.ofList_toList] at htake
    exact (grows_take htake).2.2
  | letterNext hc hbefore =>
    refine ⟨_, _, rfl, gives_cluster hc hbefore fun place given later hallowed h =>
      .inr ⟨rfl, ?_⟩⟩
    rw [takeCluster_cons hc, if_pos hallowed, htakes, if_pos rfl] at h
    exact (grows_leaveOpen h).2.2

end Giving

end DevVm.CommandLine
