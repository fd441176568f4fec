import DevVm.Proofs.OptionForms
import Mathlib.Data.List.Nodup

/-!
# Arguments that are read back

What a start asks for can be written as arguments, each option in its long form, and these are read
back as what was asked for, in whatever order they stand (`arguments_readBack`). The reader keeps
the options in the order in which they come and looks each of them up by its name. As none is given
twice, the order makes no difference (`lookup_of_perm`).

Two flags that exclude each other are found wherever they stand, since both have been read in the
end (`mem_of_gives`), and so is a number that does not fit.
-/

namespace DevVm.CommandLine

/-! ## Options in their turn -/

section Proper

variable {o : Opt} {value : String} {place : Option Subcommand}
  {before options : List (Opt × String)} {first : Opt × String}

/-- An option with its value as it is written. -/
def writtenOption (given : Opt × String) : String := given.1.written given.2

/-- Options given in their turn: those that may be given, each only once, with values they can
have. -/
structure Proper (place : Option Subcommand) (options : List (Opt × String)) : Prop where
  nodup : (options.map Prod.fst).Nodup
  allowed : ∀ given ∈ options, given.1.allowed place = true
  command : ∀ given ∈ options, given.1 ≠ .help ∧ given.1 ≠ .version
  value : ∀ given ∈ options, given.1.accepts given.2 = true ∧
    (given.1.takesValue = false → given.2 = "")

theorem has_eq_false (h : o ∉ before.map Prod.fst) : Given.has { options := before } o = false := by
  unfold Given.has Given.value?
  rw [List.lookup_eq_none_iff.mpr]
  · rfl
  · intro entry hentry
    exact bne_iff_ne.mpr fun heq => h (heq ▸ List.mem_map_of_mem hentry)

/-- An option that may be given, and has not been, counts. -/
theorem take_new (hnew : o ∉ before.map Prod.fst) (hcommand : o ≠ .help ∧ o ≠ .version)
    (hvalue : o.accepts value = true) :
    Given.take o value { options := before } = .ok { options := before ++ [(o, value)] } := by
  show Given.assign o value { options := before } = _
  unfold Given.assign
  split
  · exact absurd rfl hcommand.1
  · exact absurd rfl hcommand.2
  · rw [has_eq_false hnew, hvalue]
    rfl

/-- An option that is written is taken in its turn. -/
theorem takeArgument_proper (h : Proper place (before ++ first :: options)) (stray : UsageError) :
    Given.takeArgument place (writtenOption first) stray { options := before } =
      .ok { options := before ++ [first] } := by
  have hfirst : first ∈ before ++ first :: options :=
    List.mem_append_right _ List.mem_cons_self
  have hnew : first.1 ∉ before.map Prod.fst := by
    have hnodup := h.nodup
    rw [List.map_append, List.map_cons, List.nodup_middle] at hnodup
    exact fun hmem => (List.nodup_cons.mp hnodup).1 (List.mem_append_left _ hmem)
  obtain ⟨haccepts, hempty⟩ := h.value first hfirst
  rw [writtenOption, takeArgument_written hempty, if_pos (h.allowed first hfirst)]
  exact take_new hnew (h.command first hfirst) haccepts

/-- Options that are written behind a subcommand are taken one by one. -/
theorem takeBehind_written {sub : Subcommand} (h : Proper (some sub) (before ++ options)) :
    takeBehind sub { options := before } (options.map writtenOption) =
      .ok { options := before ++ options } := by
  induction options generalizing before with
  | nil =>
    rw [List.append_nil]
    rfl
  | cons first options ih =>
    -- The first option joins those that have been read.
    have hdashes : writtenOption first ≠ "--" := Opt.written_ne_dashes first.1 first.2
    rw [List.map_cons, takeBehind_cons hdashes, takeArgument_proper h]
    rw [List.append_cons] at h
    exact (ih h).trans (by rw [← List.append_cons])

theorem Proper.mono (h : Proper place before) (hnodup : (options.map Prod.fst).Nodup)
    (hmem : ∀ given ∈ options, given ∈ before) : Proper place options where
  nodup := hnodup
  allowed := fun given hgiven => h.allowed given (hmem given hgiven)
  command := fun given hgiven => h.command given (hmem given hgiven)
  value := fun given hgiven => h.value given (hmem given hgiven)

end Proper

/-! ## Looking options up -/

theorem lookup_eq_some_iff_mem {options : List (Opt × String)} (h : (options.map Prod.fst).Nodup)
    {o : Opt} {value : String} : options.lookup o = some value ↔ (o, value) ∈ options := by
  induction options with
  | nil => simp
  | cons first options ih =>
    obtain ⟨hfirst, hmore⟩ := List.nodup_cons.mp h
    by_cases ho : o = first.1
    · subst ho
      rw [List.lookup_cons_self, Option.some_inj, List.mem_cons]
      constructor
      · exact fun hvalue => .inl (by rw [← hvalue])
      · rintro (heq | hmem)
        · exact (congrArg Prod.snd heq).symm
        · exact absurd (List.mem_map_of_mem (f := Prod.fst) hmem) hfirst
    · have hne : (o, value) ≠ first := fun heq => ho (congrArg Prod.fst heq)
      rw [List.lookup_cons, beq_false_of_ne ho, List.mem_cons, or_iff_right hne]
      exact ih hmore

/-- The order of options does not matter to a look-up, as none is given twice. -/
theorem lookup_of_perm {options options' : List (Opt × String)} (h : options.Perm options')
    (hnodup : (options.map Prod.fst).Nodup) (o : Opt) : options.lookup o = options'.lookup o := by
  refine Option.ext fun value => ?_
  rw [lookup_eq_some_iff_mem hnodup, lookup_eq_some_iff_mem ((h.map _).nodup hnodup), h.mem_iff]

end DevVm.CommandLine

namespace DevVm.StartOptions

open CommandLine

/-! ## What a start asks for -/

/-- The value of the option by which a start asks for what it asks for, if it does. -/
def wish? (opts : StartOptions) : Opt → Option String
  | .memory => opts.memory.map fun size => Text.decimal size.toNat
  | .cpus => opts.cpus.map fun count => Text.decimal count.toNat
  | .services => asked? opts.services
  | .domain => asked? opts.domain
  | .ip => asked? opts.ip
  | .registries => asked? opts.registries
  | .masterPassword => asked? opts.masterPassword
  | .noProvision => if opts.noProvision then some "" else none
  | .provision => if opts.provision then some "" else none
  | .target => if opts.target then some "" else none
  | .printCa | .log | .help | .version => none

/-- The options by which a start asks for what it asks for. -/
def wishes (opts : StartOptions) : List (Opt × String) :=
  Opt.all.filterMap fun o => (opts.wish? o).map fun value => (o, value)

/-- What a start asks for if there is a password it may fall back on. -/
def fallingBackOn (password : Option String) (opts : StartOptions) : StartOptions :=
  { opts with masterPassword := (asked? opts.masterPassword).getD (password.getD "") }

end DevVm.StartOptions

namespace DevVm.CommandLine

/-! ## Requests -/

/-- Arguments come to a request if there is a subcommand other than help among them, and the
arguments behind it come to its command. -/
theorem read_eq_ok_iff {args : List String} {env : Option Bytes} {request : Request} :
    read args env = .ok request ↔ ∃ front sub rest final settled,
      takeFront {} args = .ok (front, sub, rest) ∧ sub ≠ .help ∧
        takeBehind sub {} rest = .ok final ∧ command sub final env = .ok request.command ∧
        front.settle = .ok settled ∧
        request.log = (final.value? .log).getD ((settled.value? .log).getD defaultLog) := by
  unfold read
  constructor
  · intro h
    obtain ⟨⟨front, sub, rest⟩, hfront, h⟩ := exists_of_bind_ok h
    dsimp only at h
    split at h
    next => cases h
    next hhelp =>
      obtain ⟨-, -, h⟩ := exists_of_bind_ok h
      obtain ⟨final, hbehind, h⟩ := exists_of_bind_ok h
      obtain ⟨command', hcommand, h⟩ := exists_of_bind_ok h
      obtain ⟨settled, hsettled, h⟩ := exists_of_bind_ok h
      cases h
      exact ⟨front, sub, rest, final, settled, hfront, hhelp, hbehind, hcommand, hsettled, rfl⟩
  · rintro ⟨front, sub, rest, final, settled, hfront, hhelp, hbehind, hcommand, hsettled, hlog⟩
    simp only [bind, Except.bind, hfront, if_neg hhelp, pure, Except.pure, hbehind, hcommand,
      hsettled, ← hlog]

section Wishes

variable {opts : StartOptions}

theorem mem_wishes_iff {o : Opt} {value : String} :
    (o, value) ∈ opts.wishes ↔ opts.wish? o = some value := by
  unfold StartOptions.wishes
  rw [List.mem_filterMap]
  constructor
  · rintro ⟨other, -, hother⟩
    obtain ⟨_, hvalue, heq⟩ := Option.map_eq_some_iff.mp hother
    cases heq
    exact hvalue
  · exact fun h => ⟨o, o.mem_all, by rw [h]; rfl⟩

theorem nodup_wishes (opts : StartOptions) : (opts.wishes.map Prod.fst).Nodup := by
  have hnames : opts.wishes.map Prod.fst = Opt.all.filter fun o => (opts.wish? o).isSome := by
    unfold StartOptions.wishes
    rw [List.map_filterMap, ← List.filterMap_eq_filter]
    refine congrArg (List.filterMap · _) (funext fun o => ?_)
    cases hwish : opts.wish? o <;> simp [Option.guard, hwish]
  rw [hnames]
  exact .filter _ (by decide)

theorem lookup_wishes (o : Opt) : opts.wishes.lookup o = opts.wish? o := by
  refine Option.ext fun value => ?_
  rw [lookup_eq_some_iff_mem (nodup_wishes opts), mem_wishes_iff]

theorem readUInt64?_decimal (size : UInt64) :
    Text.readUInt64? (Text.decimal size.toNat).toList = some size :=
  Text.readUInt64?_eq_some_iff.mpr (Text.spells_decimal _)

theorem readSmallNumber?_of_no_dash {text : List Char} (h : '-' ∉ text) :
    readSmallNumber? text = Text.readUInt32? text := by
  unfold readSmallNumber?
  split
  next => exact absurd List.mem_cons_self h
  next => rfl

theorem readSmallNumber?_decimal (count : UInt32) :
    readSmallNumber? (Text.decimal count.toNat).toList = some count := by
  rw [readSmallNumber?_of_no_dash (Text.not_mem_decimal (by decide))]
  exact Text.readUInt32?_eq_some_iff.mpr (Text.spells_decimal _)

/-- A flag that is asked for has no value. -/
theorem eq_of_flag {flag : Bool} {value : String}
    (h : (if flag then some "" else none) = some value) : value = "" := by
  cases flag
  · cases h
  · exact (Option.some.inj h).symm

theorem proper_wishes (opts : StartOptions) : Proper (some .start) opts.wishes where
  nodup := nodup_wishes opts
  allowed := fun given hgiven => by
    have hwish := mem_wishes_iff.mp hgiven
    cases ho : given.1 <;> first | rfl | (rw [ho] at hwish; cases hwish)
  command := fun given hgiven => by
    have hwish := mem_wishes_iff.mp hgiven
    refine ⟨fun ho => ?_, fun ho => ?_⟩ <;> rw [ho] at hwish <;> cases hwish
  value := fun given hgiven => by
    obtain ⟨o, value⟩ := given
    have hwish := mem_wishes_iff.mp hgiven
    cases o with
    | memory =>
      obtain ⟨size, -, rfl⟩ := Option.map_eq_some_iff.mp hwish
      exact ⟨Option.isSome_iff_exists.mpr ⟨size, readUInt64?_decimal size⟩, nofun⟩
    | cpus =>
      obtain ⟨count, -, rfl⟩ := Option.map_eq_some_iff.mp hwish
      exact ⟨Option.isSome_iff_exists.mpr ⟨count, readSmallNumber?_decimal count⟩, nofun⟩
    | services | domain | ip | registries | masterPassword => exact ⟨rfl, nofun⟩
    | noProvision | provision | target => exact ⟨rfl, fun _ => eq_of_flag hwish⟩
    | printCa | log | help | version => cases hwish

/-- The password of a start: the one asked for, or else the one to fall back on. -/
theorem masterPassword_wish {given : Given}
    (hgiven : given.value? .masterPassword = opts.wish? .masterPassword)
    (password : Option String) :
    masterPassword given (password.map Text.Utf8.encode) =
      .ok (opts.fallingBackOn password).masterPassword := by
  have hwish : opts.wish? .masterPassword = StartOptions.asked? opts.masterPassword := rfl
  unfold masterPassword StartOptions.fallingBackOn
  rw [hgiven, hwish]
  cases StartOptions.asked? opts.masterPassword with
  | some asked => rfl
  | none =>
    cases password with
    | none => rfl
    | some password =>
      rw [Option.map_some]
      dsimp only
      rw [Text.Utf8.decode?_eq_some_iff.mpr rfl]
      rfl

/-- A text that is not asked for is empty. -/
theorem getD_asked? (text : String) : (StartOptions.asked? text).getD "" = text := by
  unfold StartOptions.asked?
  split
  next h => exact h.symm
  next => rfl

theorem isSome_flag (flag : Bool) :
    (if flag then some "" else none : Option String).isSome = flag := by
  cases flag <;> rfl

theorem memory_wish :
    ((opts.wish? .memory).bind fun v => Text.readUInt64? v.toList) = opts.memory := by
  show (opts.memory.map _).bind _ = _
  cases opts.memory with
  | none => rfl
  | some size => exact readUInt64?_decimal size

theorem cpus_wish :
    ((opts.wish? .cpus).bind fun v => readSmallNumber? v.toList) = opts.cpus := by
  show (opts.cpus.map _).bind _ = _
  cases opts.cpus with
  | none => rfl
  | some count => exact readSmallNumber?_decimal count

/-- Options by which a start asks for what it asks for are taken for that. -/
theorem startOptions_wishes {given : Given}
    (hgiven : ∀ o, o ≠ .log → given.value? o = opts.wish? o) (hprint : opts.printCa = false)
    (hone : ¬(opts.provision = true ∧ opts.noProvision = true)) (password : Option String) :
    startOptions given (password.map Text.Utf8.encode) = .ok (opts.fallingBackOn password) := by
  have hnoConflict : (opts.noProvision && opts.provision) = false := by
    rw [← Bool.not_eq_true, Bool.and_eq_true]
    exact fun h => hone h.symm
  unfold startOptions Given.has
  rw [masterPassword_wish (hgiven _ nofun)]
  simp only [hgiven, ne_eq, reduceCtorEq, not_false_eq_true, memory_wish, cpus_wish]
  simp only [StartOptions.wish?, getD_asked?, isSome_flag, hnoConflict]
  obtain ⟨_, _, _, _, _, _, _, _, _, printCa, _⟩ := opts
  obtain rfl : printCa = false := hprint
  rfl

theorem proper_log_wishes (opts : StartOptions) (level : String) :
    Proper (some .start) ((.log, level) :: opts.wishes) where
  nodup := by
    refine List.nodup_cons.mpr ⟨fun hmem => ?_, nodup_wishes opts⟩
    obtain ⟨⟨o, value⟩, hwish, rfl⟩ := List.mem_map.mp hmem
    cases mem_wishes_iff.mp hwish
  allowed := List.forall_mem_cons.mpr ⟨rfl, (proper_wishes opts).allowed⟩
  command := List.forall_mem_cons.mpr ⟨⟨nofun, nofun⟩, (proper_wishes opts).command⟩
  value := List.forall_mem_cons.mpr ⟨⟨rfl, nofun⟩, (proper_wishes opts).value⟩

/-- The level of logging may stand before the subcommand. -/
theorem takeFront_written {level : String} {front : List (Opt × String)}
    (hfront : front = [] ∨ front = [(.log, level)]) (rest : List String) :
    takeFront {} (front.map writtenOption ++ "start" :: rest) =
      .ok ({ options := front }, .start, rest) := by
  rcases hfront with rfl | rfl
  · rfl
  · have hname : Subcommand.ofName? (writtenOption (.log, level)) = none :=
      ofName?_of_dash (Opt.toList_written _ _)
    have hdashes : writtenOption (.log, level) ≠ "--" := Opt.written_ne_dashes _ _
    have hproper : Proper none [(Opt.log, level)] :=
      ⟨List.nodup_singleton _, List.forall_mem_singleton.mpr rfl,
        List.forall_mem_singleton.mpr ⟨nofun, nofun⟩, List.forall_mem_singleton.mpr ⟨rfl, nofun⟩⟩
    have htake := @takeArgument_proper none [] [] _ hproper .noSuchCommand
    rw [List.map_singleton, List.singleton_append, takeFront_cons hname hdashes, htake]
    rfl

section Sides

variable {level : String} {front behind : List (Opt × String)}

/-- Options on either side of the subcommand are looked up as if they stood in order on one. -/
theorem lookup_sides (h : (front ++ behind).Perm ((.log, level) :: opts.wishes)) (o : Opt) :
    (front.lookup o).or (behind.lookup o) = ((Opt.log, level) :: opts.wishes).lookup o := by
  have hnodup := (h.map Prod.fst).symm.nodup (proper_log_wishes opts level).nodup
  rw [← List.lookup_append]
  exact lookup_of_perm h hnodup o

theorem proper_behind (h : (front ++ behind).Perm ((.log, level) :: opts.wishes)) :
    Proper (some .start) behind := by
  have hall := proper_log_wishes opts level
  have hnodup := (h.map Prod.fst).symm.nodup hall.nodup
  rw [List.map_append] at hnodup
  exact hall.mono hnodup.of_append_right fun given hgiven =>
    h.subset (List.mem_append_right _ hgiven)

/-- What a start asks for stands behind the subcommand. -/
theorem lookup_behind (hfront : front = [] ∨ front = [(.log, level)])
    (h : (front ++ behind).Perm ((.log, level) :: opts.wishes)) (o : Opt) (ho : o ≠ .log) :
    behind.lookup o = opts.wish? o := by
  have hfound := lookup_sides h o
  rw [List.lookup_cons, beq_false_of_ne ho] at hfound
  refine Eq.trans ?_ (hfound.trans (lookup_wishes o))
  rcases hfront with rfl | rfl
  · rfl
  · rw [List.lookup_cons, beq_false_of_ne ho]
    rfl

/-- The level of logging counts on whichever side it stands. -/
theorem level_sides (hfront : front = [] ∨ front = [(.log, level)])
    (h : (front ++ behind).Perm ((.log, level) :: opts.wishes)) :
    (behind.lookup .log).getD ((front.lookup .log).getD defaultLog) = level := by
  rcases hfront with rfl | rfl
  · have hfound : behind.lookup .log = some level :=
      (lookup_sides h .log).trans List.lookup_cons_self
    rw [hfound]
    rfl
  · have hperm : behind.Perm opts.wishes := (List.perm_cons _).mp h
    have hnone : behind.lookup .log = none := by
      rw [lookup_of_perm hperm (proper_behind h).nodup, lookup_wishes]
      rfl
    rw [hnone]
    rfl

/-- The arguments of a start are read as what it asks for, with the level of logging on either side
of the subcommand. -/
theorem read_wishes (hprint : opts.printCa = false)
    (hone : ¬(opts.provision = true ∧ opts.noProvision = true)) (password : Option String)
    (hfront : front = [] ∨ front = [(.log, level)])
    (h : (front ++ behind).Perm ((.log, level) :: opts.wishes)) :
    read (front.map writtenOption ++ "start" :: behind.map writtenOption)
        (password.map Text.Utf8.encode) =
      .ok ⟨level, .start (opts.fallingBackOn password)⟩ := by
  have htaken : takeBehind .start {} (behind.map writtenOption) = .ok { options := behind } :=
    @takeBehind_written [] behind .start (proper_behind h)
  have hsettled : Given.settle { options := front } = .ok { options := front } := rfl
  have hcommand : command .start { options := behind } (password.map Text.Utf8.encode) =
      .ok (.start (opts.fallingBackOn password)) := by
    rw [command, startOptions_wishes (lookup_behind hfront h) hprint hone]
    rfl
  exact read_eq_ok_iff.mpr ⟨_, _, _, _, _, takeFront_written hfront _, nofun, htaken, hcommand,
    hsettled, (level_sides hfront h).symm⟩

end Sides

end Wishes

/-! ## Arguments that are turned down -/

section TurnedDown

variable {o : Opt} {value arg : String} {args behind rest : List String} {env : Option Bytes}
  {sub : Subcommand} {front final : Given} {request : Request} {n : Nat}

/-- An option that may not stand before the subcommand and is given anywhere has been read behind
the subcommand, if the arguments are fine. -/
theorem mem_of_gives (hgives : Gives o value arg behind) (hstands : arg :: behind <:+: args)
    (hplain : behind ≠ [] → Shape.of value.toList = .plain) (hnone : o.allowed none = false)
    (hfront : takeFront {} args = .ok (front, sub, rest))
    (hbehind : takeBehind sub {} rest = .ok final) :
    o.allowed (some sub) = true ∧ (o, value) ∈ final.options := by
  obtain ⟨before, after, rfl⟩ := hstands
  obtain ⟨letters, hdash⟩ := hgives.dash
  have hnever (given later : Given) : given.takeArgument none arg .noSuchCommand ≠ .ok later := by
    intro h
    rw [(hgives.taken _ _ _ _ h).1] at hnone
    cases hnone
  rw [List.append_assoc, List.cons_append] at hfront
  obtain ⟨before, rfl⟩ := takeFront_at hfront (ofName?_of_dash hdash) hgives.dashes hnever
  obtain ⟨mid, next, htake, hrest⟩ := takeBehind_at hbehind hgives.dashes
  obtain ⟨hallowed, hvalue⟩ := hgives.taken _ _ _ _ htake
  refine ⟨hallowed, ?_⟩
  rcases hvalue with ⟨rfl, hmem⟩ | ⟨rfl, hpending⟩
  · exact (takeBehind_keeps hrest).1.mem hmem
  · -- The value is the next argument, and it has been counted at the end.
    have hshape := hplain (List.cons_ne_nil _ _)
    have hdashes : value ≠ "--" := by
      rintro rfl
      cases hshape
    rw [List.singleton_append, takeBehind_cons hdashes] at hrest
    obtain ⟨holding, hvalue, hmore⟩ := exists_of_bind_ok hrest
    refine (takeBehind_keeps hmore).2 o value ?_
    unfold Given.takeArgument at hvalue
    rw [hshape] at hvalue
    dsimp only [Given.takePlain] at hvalue
    rw [hpending] at hvalue
    cases hvalue
    rfl

theorem has_of_mem {given : Given} (h : (o, value) ∈ given.options) : given.has o = true := by
  unfold Given.has Given.value?
  cases hlookup : given.options.lookup o with
  | some found => rfl
  | none => exact absurd (List.lookup_eq_none_iff.mp hlookup _ h) (by simp)

theorem startOptions_bothFlags {given : Given} (hno : given.has .noProvision = true)
    (hyes : given.has .provision = true) : ∃ e, startOptions given env = .error e := by
  unfold startOptions
  cases masterPassword given env with
  | error e => exact ⟨e, rfl⟩
  | ok password =>
    rw [hno, hyes]
    exact ⟨.conflict, rfl⟩

/-- A start is never told both to provision and not to. -/
theorem read_bothFlags {noProvision provision : String} (hno : GivesFlag .noProvision noProvision)
    (hyes : GivesFlag .provision provision) (hnoMem : noProvision ∈ args)
    (hyesMem : provision ∈ args) : ∃ e, read args env = .error e := by
  cases h : read args env with
  | error e => exact ⟨e, rfl⟩
  | ok request =>
    obtain ⟨front, sub, rest, final, -, hfront, -, hbehind, hcommand, -⟩ := read_eq_ok_iff.mp h
    obtain ⟨hallowed, hnoProvision⟩ := mem_of_gives (gives_of_givesFlag rfl hno)
      ((List.singleton_infix_iff _ _).mpr hnoMem) nofun rfl hfront hbehind
    obtain ⟨-, hprovision⟩ := mem_of_gives (gives_of_givesFlag rfl hyes)
      ((List.singleton_infix_iff _ _).mpr hyesMem) nofun rfl hfront hbehind
    -- No other subcommand has the flags.
    obtain rfl : sub = .start := by cases sub <;> first | rfl | cases hallowed
    obtain ⟨e, herror⟩ : ∃ e, startOptions final env = .error e :=
      startOptions_bothFlags (has_of_mem hnoProvision) (has_of_mem hprovision)
    rw [command, herror] at hcommand
    cases hcommand

/-- A number is more than an option can have: 64 bits for the memory, and 32 for the processors. -/
def Opt.TooMuch (o : Opt) (n : Nat) : Prop :=
  o = .memory ∧ UInt64.size ≤ n ∨ o = .cpus ∧ UInt32.size ≤ n

theorem accepts_of_tooMuch (hn : o.TooMuch n) (h : Text.Spells value.toList n) :
    o.accepts value = false := by
  rw [← Bool.not_eq_true]
  intro haccepts
  rcases hn with ⟨rfl, hlarge⟩ | ⟨rfl, hlarge⟩
  · obtain ⟨size, hsize⟩ := Option.isSome_iff_exists.mp haccepts
    have hlt := size.toNat_lt
    rw [← h.unique (Text.readUInt64?_eq_some_iff.mp hsize)] at hlt
    exact absurd hlt (Nat.not_lt.mpr hlarge)
  · obtain ⟨count, hcount⟩ := Option.isSome_iff_exists.mp haccepts
    rw [readSmallNumber?_of_no_dash (h.not_mem rfl (by decide))] at hcount
    have hlt := count.toNat_lt
    rw [← h.unique (Text.readUInt32?_eq_some_iff.mp hcount)] at hlt
    exact absurd hlt (Nat.not_lt.mpr hlarge)

/-- A number that does not fit is never taken, wherever and however it is given. -/
theorem read_tooMuch {form : List String} (hn : o.TooMuch n) (hspells : Text.Spells value.toList n)
    (hform : GivesValue o value form) (hstands : form <:+: args) :
    ∃ e, read args env = .error e := by
  cases h : read args env with
  | error e => exact ⟨e, rfl⟩
  | ok request =>
    have htakes : o.takesValue = true ∧ o.allowed none = false := by
      rcases hn with ⟨rfl, -⟩ | ⟨rfl, -⟩ <;> exact ⟨rfl, rfl⟩
    -- A number starts neither with a dash nor with an equals sign, so it is taken as it is.
    have hne := hspells.ne_nil
    have hequals : value.toList.head? ≠ some '=' := fun hhead =>
      hspells.not_mem rfl (by decide) (List.mem_of_mem_head? hhead)
    have hplain : Shape.of value.toList = .plain := by
      unfold Shape.of
      have hdash : '-' ∉ value.toList := hspells.not_mem rfl (by decide)
      split
      next heq => exact absurd (heq ▸ List.mem_cons_self) hdash
      next heq => exact absurd (heq ▸ List.mem_cons_self) hdash
      next heq => exact absurd (heq ▸ List.mem_cons_self) hdash
      next => rfl
    obtain ⟨arg, behind, rfl, hgives⟩ := gives_of_givesValue htakes.1 hne hequals hform
    obtain ⟨front, sub, rest, final, -, hfront, -, hbehind, -⟩ := read_eq_ok_iff.mp h
    obtain ⟨-, hmem⟩ :=
      mem_of_gives hgives hstands (fun _ => hplain) htakes.2 hfront hbehind
    have hchecked := (takeBehind_keeps hbehind).1.accepted _ hmem
    rw [accepts_of_tooMuch hn hspells] at hchecked
    simp at hchecked

end TurnedDown

/-! ## What is read back -/

theorem fallingBackOn_none (opts : StartOptions) : opts.fallingBackOn none = opts := by
  unfold StartOptions.fallingBackOn
  rw [Option.getD_none, getD_asked?]

theorem fallingBackOn_some (password : String) (opts : StartOptions) :
    opts.fallingBackOn (some password) = { opts with
      masterPassword := if opts.masterPassword = "" then password else opts.masterPassword } := by
  unfold StartOptions.fallingBackOn StartOptions.asked?
  split <;> rfl

/-- What a start asks for is read back from its arguments, in whatever order they stand and
whatever is in their values, and the environment's master password only stands in for one that is
not asked for. Flags that exclude each other are turned down wherever they are given, and so are
numbers that do not fit. -/
theorem arguments_readBack :
    (∀ (opts : StartOptions) (level : String) (front behind : List (Opt × String)),
      opts.printCa = false → ¬(opts.provision = true ∧ opts.noProvision = true) →
      (front = [] ∨ front = [(.log, level)]) →
      (front ++ behind).Perm ((.log, level) :: opts.wishes) →
      read (front.map writtenOption ++ "start" :: behind.map writtenOption) none =
          .ok ⟨level, .start opts⟩ ∧
        ∀ password,
          read (front.map writtenOption ++ "start" :: behind.map writtenOption)
              (some (Text.Utf8.encode password)) =
            .ok ⟨level, .start { opts with
              masterPassword :=
                if opts.masterPassword = "" then password else opts.masterPassword }⟩) ∧
    (∀ (args : List String) (env : Option Bytes) (noProvision provision : String),
      GivesFlag .noProvision noProvision → GivesFlag .provision provision →
      noProvision ∈ args → provision ∈ args → ∃ e, read args env = .error e) ∧
    ∀ (args : List String) (env : Option Bytes) (o : Opt) (n : Nat) (value : String)
      (form : List String), o.TooMuch n → Text.Spells value.toList n → GivesValue o value form →
      form <:+: args → ∃ e, read args env = .error e := by
  refine ⟨fun opts level front behind hprint hone hfront hperm => ⟨?_, fun password => ?_⟩,
    fun args env _ _ => read_bothFlags, fun args env _ _ _ _ => read_tooMuch⟩
  · have hread := read_wishes hprint hone none hfront hperm
    rwa [fallingBackOn_none] at hread
  · have hread := read_wishes hprint hone (some password) hfront hperm
    rwa [fallingBackOn_some] at hread

/-- A start with dashes, blanks and equals signs in its values and its options in no order. -/
def unwieldy : StartOptions where
  memory := some 4096
  services := " redis, --rabbitmq "
  registries := "a=b,-c"
  provision := true
  target := true

/-- The arguments of an unwieldy start are read back, with the environment's master password; both
flags are turned down across a cluster, and so is a memory that is one too large. -/
theorem arguments_readBack_unwieldy :
    read ["--log=-v", "start", "--target", "--registries=a=b,-c", "--provision", "--memory=4096",
        "--services= redis, --rabbitmq "] (some (Text.Utf8.encode "--x=")) =
      .ok ⟨"-v", .start { unwieldy with masterPassword := "--x=" }⟩ ∧
    (∃ e, read ["start", "-tp", "-d", "local", "--no-provision"] none = .error e) ∧
    ∃ e, read ["start", "-tm", "18446744073709551616"] none = .error e := by
  have hargs : [(Opt.log, "-v")].map writtenOption ++ "start" :: [(Opt.target, ""),
        (.registries, "a=b,-c"), (.provision, ""), (.memory, "4096"),
        (.services, " redis, --rabbitmq ")].map writtenOption =
      ["--log=-v", "start", "--target", "--registries=a=b,-c", "--provision", "--memory=4096",
        "--services= redis, --rabbitmq "] := by decide +kernel
  have hperm : ([(Opt.log, "-v")] ++ [(Opt.target, ""), (.registries, "a=b,-c"),
      (.provision, ""), (.memory, "4096"), (.services, " redis, --rabbitmq ")]).Perm
      ((Opt.log, "-v") :: unwieldy.wishes) := by decide +kernel
  have hflags : AreFlags ['t'] := List.forall_mem_singleton.mpr ⟨.target, rfl, rfl⟩
  have hspells : Text.Spells "18446744073709551616".toList UInt64.size :=
    ⟨_, .inl rfl, by decide, List.all_eq_true.mp rfl, rfl⟩
  refine ⟨?_, ?_, ?_⟩
  · have hread := arguments_readBack.1 unwieldy "-v" _ _ rfl (by decide) (.inr rfl) hperm
    rw [hargs] at hread
    exact hread.2 "--x="
  · exact arguments_readBack.2.1 _ none "--no-provision" "-tp" .name (.letter rfl hflags)
      (by decide) (by decide)
  · exact arguments_readBack.2.2 _ none .memory UInt64.size "18446744073709551616" _
      (.inl ⟨rfl, le_rfl⟩) hspells (.letterNext rfl hflags) ⟨["start"], [], rfl⟩

end DevVm.CommandLine
