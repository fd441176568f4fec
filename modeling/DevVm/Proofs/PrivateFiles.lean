import DevVm.Proofs.FileTrees
import DevVm.Proofs.Moments

/-!
# Private files that are being written

A private file is written in steps, and each of them can fail with only a part of it done
(`World.Mishap`). Whatever goes wrong, at every moment the file holds a start of the data and all
else that was there is as it was (`World.Progresses`), and if nothing went wrong it holds all of the
data and is private in the end.

A new file is private from the first moment on. One that was there before keeps its permissions
until the last step, when the data have been written long since. So the data are exposed just when
others could use the file that was met (`World.exposed_iff_meetsOpen`): for a while if all goes
well, and for good if the last step is refused.
-/

namespace DevVm

/-! ## Discs on which things go wrong -/

namespace World

/-- What goes wrong with a call: the system refuses it, with only a part of it done. -/
structure Mishap where
  refusal : Refusal
  progress : Nat
deriving DecidableEq, Repr

/-- A tree of files, and what goes wrong with the calls to come, one after the other. Once there is
nothing more to come, nothing goes wrong. -/
structure Disc where
  tree : FileTree
  mishaps : List (Option Mishap) := []

namespace FileTree

/-- Cuts a file off after so many octets. -/
def cutOff (path : String) (size : Nat) (t : FileTree) : Except Refusal FileTree := do
  match ← t.find path with
  | (place, .file mode content) => return t.put place (.file mode (content.take size))
  | (_, .directory _) => throw .isADirectory

/-- What is left of a call of which only a part is done: of some directories the outer ones, and of
some octets the first ones. They may be refused when they are written or when they are handed to
the system. -/
def halfway (progress : Nat) : FileCall → FileTree → FileTree
  | .createDirs path, t => (createChain ((Path.chain path).drop progress) t).2
  | .write path octets, t => (settle (append path (octets.take progress)) t).2
  | .flush path, t => (settle (cutOff path progress) t).2
  | .read _, t | .openEmpty _, t | .restrict _, t => t

end FileTree

namespace Disc

/-- What a call is answered with. -/
def answer (c : FileCall) (d : Disc) : Except Refusal c.Value × Disc :=
  match d.mishaps with
  | some mishap :: mishaps =>
    (.error mishap.refusal, ⟨d.tree.halfway mishap.progress c, mishaps⟩)
  | mishaps =>
    let (reply, tree) := d.tree.answer c
    (reply, ⟨tree, mishaps.tail⟩)

/-- A disc as the host of tasks that work with files. -/
def host : Host fileSignature Disc := ⟨answer⟩

/-- A task on a disc. -/
def run {α : Type} (d : Disc) (task : FileTask α) :
    Outcome fileSignature Disc (Except FileError α) :=
  Program.run host (ExceptT.run task) d

/-- A task on a disc, left off once it has made so many calls. -/
def amid {α : Type} (d : Disc) (task : FileTask α) (k : Nat) :
    Outcome fileSignature Disc (Except FileError α) :=
  Program.run host ((ExceptT.run task).upTo k) d

end Disc

end World

/-! ## One call after the other -/

namespace Program

variable {S : Signature} {α σ : Type} {host : Host S σ} {always : List (Event S) → σ → Prop}
  {ends : Option α → List (Event S) → σ → Prop} {p : Program S α} {es : List (Event S)} {s : σ}

/-- What holds before every call of a run and at its end holds whenever the run is left off. -/
theorem Heeds.at_everyMoment (h : p.Heeds host (fun es s _ => always es s) ends es s)
    (hends : ∀ result es s, ends result es s → always es s) (k : Nat) :
    always (es ++ (run host (p.upTo k) s).events) (run host (p.upTo k) s).state := by
  induction p generalizing es s k with
  | done value =>
    cases k <;> simpa only [Program.upTo, run, List.append_nil] using hends _ _ _ h
  | cut => cases k <;> simpa only [Program.upTo, run, List.append_nil] using hends _ _ _ h
  | call c next ih =>
    cases k with
    | zero => simpa only [Program.upTo, run, List.append_nil] using h.1
    | succ k =>
      have hnext := ih _ h.2 k
      simpa only [Program.upTo, run, List.append_assoc, List.singleton_append] using hnext

end Program

namespace FileTask

open World

variable {α : Type} {rule : List (Event fileSignature) → Disc → fileSignature.Call → Prop}
  {ends : Option (Except FileError α) → List (Event fileSignature) → Disc → Prop}
  {c : FileCall} {step : FileStep} {path : String} {f : c.Value → FileTask α}
  {es : List (Event fileSignature)} {d : Disc}

theorem ok_of_mapError {ε ε' β : Type} {g : ε → ε'} {reply : Except ε β} {value : β}
    (h : some (reply.mapError g) = some (.ok value)) : reply = .ok value := by
  cases reply <;> cases h
  rfl

theorem heeds_need
    {ends : Option (Except FileError c.Value) → List (Event fileSignature) → Disc → Prop}
    (hrule : rule es d c)
    (hends : ends (some ((d.answer c).1.mapError fun refusal => ⟨step, path, refusal.reason⟩))
      (es ++ [⟨c, (d.answer c).1⟩]) (d.answer c).2) :
    (ExceptT.run (need c step path)).Heeds Disc.host rule ends es d :=
  ⟨hrule, hends⟩

/-- A call that is needed: either it is refused, which is the end, or the task goes on with what it
is answered with. -/
theorem heeds_need_bind (hrule : rule es d c)
    (herror : ∀ refusal, (d.answer c).1 = .error refusal →
      ends (some (.error ⟨step, path, refusal.reason⟩)) (es ++ [⟨c, .error refusal⟩])
        (d.answer c).2)
    (hok : ∀ value, (d.answer c).1 = .ok value →
      (ExceptT.run (f value)).Heeds Disc.host rule ends (es ++ [⟨c, .ok value⟩]) (d.answer c).2) :
    (ExceptT.run (need c step path >>= f)).Heeds Disc.host rule ends es d := by
  refine ⟨hrule, ?_⟩
  show Program.Heeds Disc.host rule ends
    (ExceptT.bindCont f ((d.answer c).1.mapError fun refusal => ⟨step, path, refusal.reason⟩))
    (es ++ [⟨c, (d.answer c).1⟩]) (d.answer c).2
  cases hreply : (d.answer c).1 with
  | error refusal => exact herror refusal hreply
  | ok value => exact hok value hreply

end FileTask

/-! ## What one call does -/

namespace World

namespace FileTree

/-- The directories above a file are created. -/
def prepare (path : String) (t : FileTree) : Except Refusal Unit × FileTree :=
  match Path.parent? path with
  | some dir => createChain (Path.chain dir) t
  | none => (.ok (), t)

/-- Once the directories above are there, a path leads to a file with these permissions. -/
def Meets (t : FileTree) (path : String) (mode : Nat) : Prop :=
  ∃ ready place content, prepare path t = (.ok (), ready) ∧ ready.Leads path place mode content

/-- A file that is being written: it holds the start of the data, its permissions are those it was
met with, or private, and all else that was there before is as it was. -/
structure Written (t : FileTree) (path : String) (data : Bytes) (place : Place) (mode : Nat)
    (content : Bytes) (now : FileTree) : Prop where
  leads : now.Leads path place mode content
  start : content <+: data
  kept : t.Keeps now (some place)
  mode : mode = privateMode ∨ t.Meets path mode

section Written

variable {t now : FileTree} {path : String} {data content content' : Bytes} {place : Place}
  {mode mode' : Nat}

theorem Written.put (h : t.Written path data place mode content now) (hstart : content' <+: data)
    (hmode : mode' = privateMode ∨ t.Meets path mode') :
    t.Written path data place mode' content' (now.put place (.file mode' content')) where
  leads := h.leads.put mode' content'
  start := hstart
  kept := h.kept.trans (keeps_put h.leads.noDirectory _)
  mode := hmode

theorem Written.append (h : t.Written path data place mode [] now) {octets : Bytes}
    (hstart : octets <+: data) :
    t.Written path data place mode octets (settle (append path octets) now).2 := by
  unfold settle
  rw [h.leads.append]
  exact h.put hstart h.mode

theorem Written.cutOff (h : t.Written path data place mode content now) (size : Nat) :
    t.Written path data place mode (content.take size) (settle (cutOff path size) now).2 := by
  have hcut : FileTree.cutOff path size now =
      .ok (now.put place (.file mode (content.take size))) := by
    unfold FileTree.cutOff
    rw [find_eq_ok_iff.mpr h.leads]
    rfl
  unfold settle
  rw [hcut]
  exact h.put ((List.take_prefix _ _).trans h.start) h.mode

end Written

end FileTree

namespace Disc

open FileTree

variable {t : FileTree} {d : Disc} {path dir : String} {data content : Bytes} {place : Place}
  {mode : Nat}

/-- A call is answered as ever, or something goes wrong with it. -/
theorem answer_cases (c : FileCall) (d : Disc) :
    (∃ mishaps, d.answer c = ((d.tree.answer c).1, ⟨(d.tree.answer c).2, mishaps⟩)) ∨
      ∃ (mishap : Mishap) (mishaps : List (Option Mishap)),
        d.answer c = (.error mishap.refusal, ⟨d.tree.halfway mishap.progress c, mishaps⟩) := by
  unfold answer
  split
  next mishap mishaps heq => exact .inr ⟨mishap, mishaps, rfl⟩
  next => exact .inl ⟨_, rfl⟩

/-- Nothing goes wrong with a call if nothing is to. -/
theorem answer_faultless {mishaps : List (Option Mishap)} (h : mishaps.head?.join = none)
    (c : FileCall) (t : FileTree) :
    answer c ⟨t, mishaps⟩ = ((t.answer c).1, ⟨(t.answer c).2, mishaps.tail⟩) := by
  cases mishaps with
  | nil => rfl
  | cons first mishaps =>
    cases first with
    | none => rfl
    | some mishap => cases h

theorem createDirs_keeps (dir : String) (d : Disc) :
    d.tree.Keeps (d.answer (.createDirs dir)).2.tree none := by
  rcases answer_cases (.createDirs dir) d with ⟨_, h⟩ | ⟨_, _, h⟩ <;> rw [h] <;>
    exact keeps_createChain _ _

theorem createDirs_ok {value : Unit} (h : (d.answer (.createDirs dir)).1 = .ok value) :
    createChain (Path.chain dir) d.tree = (.ok (), (d.answer (.createDirs dir)).2.tree) := by
  rcases answer_cases (.createDirs dir) d with ⟨_, heq⟩ | ⟨_, _, heq⟩ <;> rw [heq] at h ⊢
  · exact Prod.ext h rfl
  · cases h

theorem openEmpty_error {refusal : Refusal} (h : (d.answer (.openEmpty path)).1 = .error refusal) :
    (d.answer (.openEmpty path)).2.tree = d.tree := by
  rcases answer_cases (.openEmpty path) d with ⟨_, heq⟩ | ⟨_, _, heq⟩ <;> rw [heq] at h ⊢
  · dsimp only [FileTree.answer, settle] at h ⊢
    split at h
    · cases h
    · rfl
  · rfl

theorem openEmpty_ok {value : Unit} (h : (d.answer (.openEmpty path)).1 = .ok value) :
    openEmpty path d.tree = .ok (d.answer (.openEmpty path)).2.tree := by
  rcases answer_cases (.openEmpty path) d with ⟨_, heq⟩ | ⟨_, _, heq⟩ <;> rw [heq] at h ⊢
  · dsimp only [FileTree.answer, settle] at h ⊢
    split at h
    · assumption
    · cases h
  · cases h

theorem write_written (h : t.Written path data place mode [] d.tree) :
    ∃ content, t.Written path data place mode content (d.answer (.write path data)).2.tree ∧
      ∀ value, (d.answer (.write path data)).1 = .ok value → content = data := by
  rcases answer_cases (.write path data) d with ⟨_, heq⟩ | ⟨mishap, _, heq⟩ <;> rw [heq]
  · exact ⟨data, h.append (List.prefix_refl _), fun _ _ => rfl⟩
  · exact ⟨data.take mishap.progress, h.append (List.take_prefix _ _), nofun⟩

theorem flush_written (h : t.Written path data place mode content d.tree) :
    ∃ content', t.Written path data place mode content' (d.answer (.flush path)).2.tree ∧
      ∀ value, (d.answer (.flush path)).1 = .ok value → content' = content := by
  rcases answer_cases (.flush path) d with ⟨_, heq⟩ | ⟨mishap, _, heq⟩ <;> rw [heq]
  · exact ⟨content, h, fun _ _ => rfl⟩
  · exact ⟨content.take mishap.progress, h.cutOff _, nofun⟩

theorem restrict_written (h : t.Written path data place mode content d.tree) :
    ∃ mode', t.Written path data place mode' content (d.answer (.restrict path)).2.tree ∧
      ∀ value, (d.answer (.restrict path)).1 = .ok value → mode' = privateMode := by
  rcases answer_cases (.restrict path) d with ⟨_, heq⟩ | ⟨mishap, _, heq⟩ <;> rw [heq]
  · dsimp only [FileTree.answer, settle]
    split
    next now hset =>
      rw [h.leads.of_setMode hset]
      exact ⟨privateMode, h.put h.start (.inl rfl), fun _ _ => rfl⟩
    next => exact ⟨mode, h, nofun⟩
  · exact ⟨mode, h, nofun⟩

end Disc

end World

/-! ## The file from moment to moment -/

namespace World

open FileTree

/-- A file was opened, and emptied. -/
def Opens : Event fileSignature → Prop
  | ⟨.openEmpty _, .ok _⟩ => True
  | _ => False

/-- How far the writing of a file has come: until it is opened nothing that was there has changed,
and from then on it is being written. -/
def Progresses (t : FileTree) (path : String) (data : Bytes) (es : List (Event fileSignature))
    (d : Disc) : Prop :=
  (∀ e ∈ es, ¬Opens e) ∧ t.Keeps d.tree none ∨
    ∃ place mode content, t.Written path data place mode content d.tree

/-- How the writing of a file ends: if it succeeds, the file is private and holds the data. -/
def EndsWritten (t : FileTree) (path : String) (data : Bytes)
    (result : Option (Except FileError Unit)) (es : List (Event fileSignature)) (d : Disc) : Prop :=
  Progresses t path data es d ∧
    (result = some (.ok ()) → ∃ place, t.Written path data place privateMode data d.tree)

end World

namespace FileTask

open World World.FileTree

/-- The steps of writing a private file once the directories above it are there. -/
def fill (path : String) (data : Bytes) : FileTask Unit := do
  need (.openEmpty path) .createFile path
  need (.write path data) .writeFile path
  need (.flush path) .writeFile path
  need (.restrict path) .setPermissions path

theorem writePrivate_eq (path : String) (data : Bytes) : writePrivate path data =
    match Path.parent? path with
    | some dir => need (.createDirs dir) .createDir dir >>= fun _ => fill path data
    | none => fill path data := by
  unfold writePrivate
  cases Path.parent? path <;> rfl

section Progress

variable {t : FileTree} {path : String} {data : Bytes} {es : List (Event fileSignature)} {d : Disc}

theorem heeds_fill (hes : ∀ e ∈ es, ¬Opens e) (hkept : t.Keeps d.tree none)
    (hready : prepare path t = (.ok (), d.tree)) :
    (ExceptT.run (fill path data)).Heeds Disc.host (fun es d _ => Progresses t path data es d)
      (EndsWritten t path data) es d := by
  refine heeds_need_bind (.inl ⟨hes, hkept⟩) (fun refusal h => ⟨.inl ⟨?_, ?_⟩, nofun⟩)
    fun _ h => ?_
  · intro e he
    rcases List.mem_append.mp he with he | he
    · exact hes e he
    · rw [List.mem_singleton.mp he]
      exact id
  · rw [Disc.openEmpty_error h]
    exact hkept
  -- From here on the file is there, with the permissions it was met with, and each call leaves it
  -- as one that is being written.
  obtain ⟨place, mode, hleads, hothers, hmode⟩ := leads_of_openEmpty (Disc.openEmpty_ok h)
  have hmet : mode = privateMode ∨ t.Meets path mode :=
    hmode.imp_right fun ⟨content, hmet⟩ => ⟨_, place, content, hready, hmet⟩
  have hopened : t.Written path data place mode [] _ :=
    ⟨hleads, List.nil_prefix, (hkept.but place).trans hothers, hmet⟩
  obtain ⟨content, hwritten, hwhole⟩ := Disc.write_written hopened
  refine heeds_need_bind (.inr ⟨_, _, _, hopened⟩)
    (fun refusal h => ⟨.inr ⟨_, _, _, hwritten⟩, nofun⟩) fun _ h => ?_
  obtain rfl := hwhole _ h
  obtain ⟨content', hflushed, hwhole⟩ := Disc.flush_written hwritten
  refine heeds_need_bind (.inr ⟨_, _, _, hwritten⟩)
    (fun refusal h => ⟨.inr ⟨_, _, _, hflushed⟩, nofun⟩) fun _ h => ?_
  obtain rfl := hwhole _ h
  -- Only the last step is sure to make it private.
  obtain ⟨mode', hrestricted, hprivate⟩ := Disc.restrict_written hflushed
  refine heeds_need (c := .restrict path) (.inr ⟨_, _, _, hflushed⟩)
    ⟨.inr ⟨_, _, _, hrestricted⟩, fun h => ?_⟩
  obtain rfl := hprivate _ (ok_of_mapError h)
  exact ⟨place, hrestricted⟩

/-- Whatever goes wrong, nothing but the file changes, and it is there as it should be if nothing
went wrong. -/
theorem heeds_writePrivate (t : FileTree) (mishaps : List (Option Mishap)) (path : String)
    (data : Bytes) :
    (ExceptT.run (writePrivate path data)).Heeds Disc.host
      (fun es d _ => Progresses t path data es d) (EndsWritten t path data) [] ⟨t, mishaps⟩ := by
  have hstart : Progresses t path data [] ⟨t, mishaps⟩ := .inl ⟨nofun, .refl t none⟩
  rw [writePrivate_eq]
  cases hparent : Path.parent? path with
  | none =>
    have hready : prepare path t = (.ok (), t) := by rw [prepare, hparent]
    exact heeds_fill nofun (.refl t none) hready
  | some dir =>
    have hkept := Disc.createDirs_keeps dir ⟨t, mishaps⟩
    have hcreates (reply : Except Refusal Unit) :
        ∀ e ∈ [Event.mk (S := fileSignature) (.createDirs dir) reply], ¬Opens e :=
      List.forall_mem_singleton.mpr id
    refine heeds_need_bind hstart (fun refusal _ => ⟨.inl ⟨hcreates _, hkept⟩, nofun⟩) fun _ h => ?_
    have hready : prepare path t = createChain (Path.chain dir) t := by rw [prepare, hparent]
    have hcreated := Disc.createDirs_ok h
    exact heeds_fill (hcreates _) hkept (hready.trans hcreated)

end Progress

end FileTask

/-! ## Exposed files -/

namespace World

/-- A path leads to a file that holds something, and others than its owner may use it. -/
def FileTree.LiesOpen (t : FileTree) (path : String) : Prop :=
  ∃ place mode content,
    t.find path = .ok (place, .file mode content) ∧ content ≠ [] ∧ mode &&& 0o077 ≠ 0

/-- Others than its owner may use a file that holds something since it was opened. -/
def Exposed {α : Type} (path : String) (o : Outcome fileSignature Disc α) : Prop :=
  (∃ e ∈ o.events, Opens e) ∧ o.state.tree.LiesOpen path

/-- A file that others than its owner may use is met at a path. -/
def FileTree.MeetsOpen (t : FileTree) (path : String) : Prop :=
  ∃ mode, t.Meets path mode ∧ mode &&& 0o077 ≠ 0

namespace Disc

open FileTask FileTree

section Faultless

variable {t ready : FileTree} {path : String} {data content : Bytes} {place : Place} {mode : Nat}
  {d d' : Disc} {c : FileCall} {reply : Except Refusal c.Value} {α : Type}
  {next : Except Refusal c.Value → Program fileSignature α} {mishaps : List (Option Mishap)}

/-- What a program comes to is what comes after its first call. -/
theorem comes_call (ends : Option α → Disc → Prop) (h : d.answer c = (reply, d'))
    (hrest : ends (Program.run host (next reply) d').result
      (Program.run host (next reply) d').state) :
    ends (Program.run host (.call c next) d).result (Program.run host (.call c next) d).state := by
  show ends (Program.run host (next (d.answer c).1) (d.answer c).2).result
    (Program.run host (next (d.answer c).1) (d.answer c).2).state
  rw [h]
  exact hrest

theorem exposed_call (h : d.answer c = (reply, d'))
    (hrest : Exposed path (Program.run host (next reply) d')) :
    Exposed path (Program.run host (.call c next) d) := by
  show (∃ e ∈ ⟨c, (d.answer c).1⟩ :: (Program.run host (next (d.answer c).1) (d.answer c).2).events,
    Opens e) ∧ (Program.run host (next (d.answer c).1) (d.answer c).2).state.tree.LiesOpen path
  rw [h]
  obtain ⟨⟨e, he, hopens⟩, hopen⟩ := hrest
  exact ⟨⟨e, List.mem_cons_of_mem _ he, hopens⟩, hopen⟩

theorem answer_openEmpty (h : ready.Leads path place mode content)
    (hmishaps : mishaps.head?.join = none) : answer (.openEmpty path) ⟨ready, mishaps⟩ =
      (.ok (), ⟨ready.put place (.file mode []), mishaps.tail⟩) := by
  rw [answer_faultless hmishaps, FileTree.answer, settle, h.openEmpty]
  rfl

theorem answer_write (h : ready.Leads path place mode []) (hmishaps : mishaps.head?.join = none) :
    answer (.write path data) ⟨ready, mishaps⟩ =
      (.ok (), ⟨ready.put place (.file mode data), mishaps.tail⟩) := by
  rw [answer_faultless hmishaps, FileTree.answer, settle, h.append, List.nil_append]
  rfl

/-- A file keeps the permissions it was met with until it holds the data. -/
theorem leads_fill_amid (h : ready.Leads path place mode content) (data : Bytes) :
    (amid ⟨ready, []⟩ (fill path data) 2).state.tree.Leads path place mode data := by
  have hopened := h.put mode []
  have hwrite : answer (.write path data) ⟨_, []⟩ = _ := answer_write hopened rfl
  refine comes_call (fun _ d => d.tree.Leads path place mode data) (answer_openEmpty h rfl) ?_
  refine comes_call (fun _ d => d.tree.Leads path place mode data) hwrite ?_
  exact hopened.put mode data

/-- It keeps them if the system refuses to take them away. -/
theorem leads_fill_run (h : ready.Leads path place mode content) (data : Bytes)
    (refused : Mishap) :
    let o := run ⟨ready, [none, none, none, some refused]⟩ (fill path data)
    o.result = some (.error ⟨.setPermissions, path, refused.refusal.reason⟩) ∧
      o.state.tree.Leads path place mode data := by
  have hopened := h.put mode []
  let ends (result : Option (Except FileError Unit)) (d : Disc) : Prop :=
    result = some (.error ⟨.setPermissions, path, refused.refusal.reason⟩) ∧
      d.tree.Leads path place mode data
  refine comes_call ends (answer_openEmpty h rfl) ?_
  refine comes_call ends (answer_write hopened rfl) ?_
  refine comes_call ends (answer_faultless rfl (.flush path) _) ?_
  exact ⟨rfl, hopened.put mode data⟩

theorem opens_answer_openEmpty (h : ready.Leads path place mode content)
    (mishaps : List (Option Mishap)) (hmishaps : mishaps.head?.join = none) :
    Opens ⟨.openEmpty path, (answer (.openEmpty path) ⟨ready, mishaps⟩).1⟩ := by
  rw [answer_openEmpty h hmishaps]
  trivial

/-- A file that others may use is still open to them when it holds the data, and it stays so if the
system refuses to take its permissions away. -/
theorem exposed_fill (h : ready.Leads path place mode content) (hdata : data ≠ [])
    (hmode : mode &&& 0o077 ≠ 0) (refused : Mishap) :
    Exposed path (amid ⟨ready, []⟩ (fill path data) 2) ∧
      Exposed path (run ⟨ready, [none, none, none, some refused]⟩ (fill path data)) := by
  have hopen {now : FileTree} (hnow : now.Leads path place mode data) : now.LiesOpen path :=
    ⟨place, mode, data, find_eq_ok_iff.mpr hnow, hdata, hmode⟩
  have hlater := (leads_fill_run h data refused).2
  exact ⟨⟨⟨_, List.mem_cons_self, opens_answer_openEmpty h [] rfl⟩, hopen (leads_fill_amid h data)⟩,
    ⟨_, List.mem_cons_self, opens_answer_openEmpty h (none :: _) rfl⟩, hopen hlater⟩

/-- The same with the directories above, which are created first. -/
theorem exposed_writePrivate {t : FileTree} (hready : prepare path t = (.ok (), ready))
    (h : ready.Leads path place mode content) (hdata : data ≠ []) (hmode : mode &&& 0o077 ≠ 0)
    (refused : Mishap) :
    (∃ k, Exposed path (amid ⟨t, []⟩ (writePrivate path data) k)) ∧
      ∃ mishaps, let o := run ⟨t, mishaps⟩ (writePrivate path data)
        o.result = some (.error ⟨.setPermissions, path, refused.refusal.reason⟩) ∧
          Exposed path o := by
  obtain ⟨hamid, hrun⟩ := exposed_fill h hdata hmode refused
  have hresult := (leads_fill_run h data refused).1
  rw [writePrivate_eq]
  unfold prepare at hready
  cases hparent : Path.parent? path with
  | none =>
    rw [hparent] at hready
    cases hready
    exact ⟨⟨2, hamid⟩, _, hresult, hrun⟩
  | some dir =>
    rw [hparent] at hready
    have hcreated {mishaps : List (Option Mishap)} (hmishaps : mishaps.head?.join = none) :
        answer (.createDirs dir) ⟨t, mishaps⟩ = (.ok (), ⟨ready, mishaps.tail⟩) := by
      rw [answer_faultless hmishaps]
      exact congrArg (fun r => (r.1, Disc.mk r.2 mishaps.tail)) hready
    refine ⟨⟨3, exposed_call (hcreated rfl) hamid⟩,
      [none, none, none, none, some refused], ?_, exposed_call (hcreated rfl) hrun⟩
    exact comes_call (fun result _ => result = some _) (hcreated rfl) hresult

end Faultless

end Disc

section Exposure

open FileTask FileTree

variable {t : FileTree} {path : String} {data : Bytes} {es : List (Event fileSignature)} {d : Disc}

/-- Only a file that was met open is exposed. -/
theorem meetsOpen_of_exposed (h : Progresses t path data es d) (hopens : ∃ e ∈ es, Opens e)
    (hopen : d.tree.LiesOpen path) : data ≠ [] ∧ t.MeetsOpen path := by
  rcases h with ⟨hnone, -⟩ | ⟨place, mode, content, hwritten⟩
  · obtain ⟨e, he, hopens⟩ := hopens
    exact absurd hopens (hnone e he)
  · obtain ⟨_, _, _, hfind, hcontent, hmode⟩ := hopen
    rw [find_eq_ok_iff.mpr hwritten.leads] at hfind
    cases hfind
    -- A private file is open to nobody else, so these are the permissions it was met with.
    refine ⟨fun hdata => hcontent ?_, mode, hwritten.mode.resolve_left ?_, hmode⟩
    · exact List.prefix_nil.mp (hdata ▸ hwritten.start)
    · rintro rfl
      exact hmode rfl

/-- At every moment of the writing of a private file, and at its end. -/
theorem progresses_amid (t : FileTree) (mishaps : List (Option Mishap)) (path : String)
    (data : Bytes) (k : Nat) :
    let o := Disc.amid ⟨t, mishaps⟩ (writePrivate path data) k
    Progresses t path data o.events o.state :=
  (heeds_writePrivate t mishaps path data).at_everyMoment (fun _ _ _ h => h.1) k

theorem ends_run (t : FileTree) (mishaps : List (Option Mishap)) (path : String) (data : Bytes) :
    let o := Disc.run ⟨t, mishaps⟩ (writePrivate path data)
    EndsWritten t path data o.result o.events o.state :=
  (heeds_writePrivate t mishaps path data).ends_run

/-- A file is exposed while it is being written just when it was there before, open to others than
its owner: then it is so in every such writing, and for good if the system refuses to take the
permissions away. Whatever goes wrong, at every moment nothing but the file has changed and the file
holds the start of the data; and if nothing went wrong, it holds all of it and is private. -/
theorem exposed_iff_meetsOpen (t : FileTree) (path : String) (data : Bytes) :
    ((∃ mishaps, Exposed path (Disc.run ⟨t, mishaps⟩ (writePrivate path data)) ∨
        ∃ k, Exposed path (Disc.amid ⟨t, mishaps⟩ (writePrivate path data) k)) ↔
      data ≠ [] ∧ t.MeetsOpen path) ∧
    (data ≠ [] ∧ t.MeetsOpen path →
      (∃ k, Exposed path (Disc.amid ⟨t, []⟩ (writePrivate path data) k)) ∧
        ∀ refusal, ∃ mishaps, let o := Disc.run ⟨t, mishaps⟩ (writePrivate path data)
          o.result = some (.error ⟨.setPermissions, path, Refusal.reason refusal⟩) ∧
            Exposed path o) ∧
    ∀ mishaps,
      (∀ k, let now := (Disc.amid ⟨t, mishaps⟩ (writePrivate path data) k).state.tree
        t.Keeps now none ∨ ∃ place mode content, content <+: data ∧
          now.find path = .ok (place, .file mode content) ∧ t.Keeps now (some place)) ∧
      let o := Disc.run ⟨t, mishaps⟩ (writePrivate path data)
      o.result = some (.ok ()) → ∃ place,
        o.state.tree.find path = .ok (place, .file 0o600 data) ∧
          t.Keeps o.state.tree (some place) := by
  have hexposed : data ≠ [] ∧ t.MeetsOpen path →
      (∃ k, Exposed path (Disc.amid ⟨t, []⟩ (writePrivate path data) k)) ∧
        ∀ refusal, ∃ mishaps, let o := Disc.run ⟨t, mishaps⟩ (writePrivate path data)
          o.result = some (.error ⟨.setPermissions, path, Refusal.reason refusal⟩) ∧
            Exposed path o := by
    rintro ⟨hdata, mode, ⟨ready, place, content, hready, hleads⟩, hmode⟩
    have hboth (refusal : Refusal) :=
      Disc.exposed_writePrivate hready hleads hdata hmode ⟨refusal, 0⟩
    exact ⟨(hboth .notFound).1, fun refusal => (hboth refusal).2⟩
  refine ⟨⟨?_, fun h => ⟨[], .inr (hexposed h).1⟩⟩, hexposed, fun mishaps => ⟨fun k => ?_, ?_⟩⟩
  · rintro ⟨mishaps, ⟨hopens, hopen⟩ | ⟨k, hopens, hopen⟩⟩
    · exact meetsOpen_of_exposed (ends_run t mishaps path data).1 hopens hopen
    · exact meetsOpen_of_exposed (progresses_amid t mishaps path data k) hopens hopen
  · rcases progresses_amid t mishaps path data k with ⟨-, hkept⟩ | ⟨place, mode, content, h⟩
    · exact .inl hkept
    · exact .inr ⟨place, mode, content, h.start, find_eq_ok_iff.mpr h.leads, h.kept⟩
  · intro o hok
    obtain ⟨place, h⟩ := (ends_run t mishaps path data).2 hok
    exact ⟨place, find_eq_ok_iff.mpr h.leads, h.kept⟩

/-- A key that everybody may read. -/
def shownKey : FileTree where
  nodes := [(["key.pem"], .file 0o644 [1])]

theorem shownKey_leads : shownKey.Leads "key.pem" ["key.pem"] 0o644 [1] :=
  ⟨rfl, rfl⟩

/-- A key that everybody may read is replaced by a private one, but the new one can be read by
everybody for a while. -/
theorem exposed_iff_meetsOpen_shownKey :
    (∃ k, Exposed "key.pem" (Disc.amid ⟨shownKey, []⟩ (writePrivate "key.pem" [2, 3]) k)) ∧
      ∃ place, (Disc.run ⟨shownKey, []⟩ (writePrivate "key.pem" [2, 3])).state.tree.find "key.pem" =
        .ok (place, .file 0o600 [2, 3]) := by
  obtain ⟨-, hexposed, hall⟩ := exposed_iff_meetsOpen shownKey "key.pem" [2, 3]
  have hready : prepare "key.pem" shownKey = (.ok (), shownKey) := rfl
  have hmeets : shownKey.MeetsOpen "key.pem" :=
    ⟨0o644, ⟨shownKey, _, _, hready, shownKey_leads⟩, by decide⟩
  have hok : (Disc.run ⟨shownKey, []⟩ (writePrivate "key.pem" [2, 3])).result = some (.ok ()) := rfl
  obtain ⟨place, hfind, -⟩ := (hall []).2 hok
  exact ⟨(hexposed ⟨nofun, hmeets⟩).1, place, hfind⟩

/-- A system that shows the name of a process in a file, which its owner may write to and everybody
may read, and that lets nobody change that. -/
def nameShown : FileTree where
  nodes :=
    [(["proc"], .directory 0o555), (["proc", "self"], .directory 0o555),
      (["proc", "self", "comm"], .file 0o644 []), (["work"], .directory 0o755)]
  here := ["work"]
  fixed := [["proc", "self", "comm"]]

/-- Data that were written over a file that everybody may read can be read by everybody: for a while
if all goes well, and for good if the permissions cannot be taken away. -/
theorem writePrivate_exposed :
    Exposed "key.pem" (Disc.amid ⟨shownKey, []⟩ (writePrivate "key.pem" [2, 3]) 3) ∧
      let o := Disc.run ⟨nameShown, []⟩
        (writePrivate "../proc/self/comm" (Text.Utf8.encode "some-secret-key\n"))
      o.result = some (.error ⟨.setPermissions, "../proc/self/comm",
          "Operation not permitted (os error 1)"⟩) ∧ Exposed "../proc/self/comm" o := by
  have hname (data : Bytes) (hdata : data ≠ []) :
      let o := Disc.run ⟨nameShown, []⟩ (writePrivate "../proc/self/comm" data)
      o.result = some (.error ⟨.setPermissions, "../proc/self/comm",
          "Operation not permitted (os error 1)"⟩) ∧ Exposed "../proc/self/comm" o :=
    ⟨rfl, ⟨_, .tail _ (.head _), trivial⟩, ["proc", "self", "comm"], 0o644, data, rfl, hdata,
      by decide⟩
  refine ⟨⟨⟨_, .tail _ (.head _), trivial⟩, ["key.pem"], 0o644, [2, 3], rfl, nofun, by decide⟩, ?_⟩
  exact hname _ (by decide)

end Exposure

end World

end DevVm
