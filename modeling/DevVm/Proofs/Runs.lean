import DevVm.Host.Call

/-!
# Reasoning about runs

Two ways to say what comes of a program without running it, and how a run and its host go
together.

`Program.Makes` looks at the program alone: every call it may make, whatever its calls are
answered with, is one of those allowed. What every allowed call keeps of the events so far
and of the host's state, a run keeps (`Makes.run_keeps`).

`Task.Ensures` looks at one run: what holds of the value, the events and the last state if
the task succeeds, and what holds of the error if it does not. `Ensures.bind` cuts the run
of a sequence where the first part ends, so each operation needs one statement about its
own run and is never looked into again.

The events of a run say all about its host: `Host.after` is where the host stands after some
of them, and every call has been answered as the host stood when it was made
(`Program.run_gives`).
-/

namespace DevVm

namespace Program

variable {S : Signature} {α β σ : Type}

/-! ## Sequences -/

theorem bind_done (p : Program S α) : p.bind done = p := by
  induction p with
  | done value => rfl
  | cut => rfl
  | call c next ih => exact congrArg (call c) (funext ih)

theorem bind_assoc {γ : Type} (p : Program S α) (f : α → Program S β) (g : β → Program S γ) :
    (p.bind f).bind g = p.bind fun a => (f a).bind g := by
  induction p with
  | done value => rfl
  | cut => rfl
  | call c next ih => exact congrArg (call c) (funext ih)

instance : LawfulMonad (Program S) :=
  .mk' (Program S) bind_done (fun _ _ => rfl) bind_assoc

/-! ## What a program may call -/

/-- Every call the program may make is allowed, whatever its calls are answered with. -/
def Makes (allowed : S.Call → Prop) : Program S α → Prop
  | done _ => True
  | cut => True
  | call c next => allowed c ∧ ∀ reply, (next reply).Makes allowed

/-- Any program makes some calls. -/
theorem makes_any (p : Program S α) : p.Makes fun _ => True := by
  induction p with
  | done value => exact trivial
  | cut => exact trivial
  | call c next ih => exact ⟨trivial, ih⟩

/-- What every allowed call keeps, the run of a program that makes only such calls keeps. The
relation may look back at the events, those before the run included. -/
theorem Makes.run_keeps {host : Host S σ} {allowed : S.Call → Prop}
    {R : List (Event S) → σ → Prop}
    (step : ∀ es s c, allowed c → R es s →
      R (es ++ [⟨c, (host.answer c s).1⟩]) (host.answer c s).2) :
    ∀ {p : Program S α}, p.Makes allowed → ∀ (before : List (Event S)) {s : σ}, R before s →
      R (before ++ (run host p s).events) (run host p s).state := by
  intro p hp
  induction p with
  | done value => intro before s h; simpa only [run, List.append_nil] using h
  | cut => intro before s h; simpa only [run, List.append_nil] using h
  | call c next ih =>
    intro before s h
    have hnext := ih _ (hp.2 (host.answer c s).1) _ (step before s c hp.1 h)
    simpa only [run, List.append_assoc, List.singleton_append] using hnext

end Program

/-! ## Where a host stands -/

section Standing

variable {S : Signature} {α σ : Type}

/-- Where a host stands after some calls. -/
def Host.after (host : Host S σ) (s : σ) (es : List (Event S)) : σ :=
  es.foldl (fun s e => (host.answer e.call s).2) s

/-- A host answers some calls as it stands at each. -/
def Host.Gives (host : Host S σ) (s : σ) (es : List (Event S)) : Prop :=
  ∀ before e later, es = before ++ e :: later →
    (host.answer e.call (host.after s before)).1 = e.reply

variable {host : Host S σ} {s : σ}

theorem Host.after_append (es more : List (Event S)) :
    host.after s (es ++ more) = host.after (host.after s es) more := List.foldl_append

theorem Host.gives_nil : host.Gives s [] := fun before e later h => by
  cases before <;> cases h

theorem Host.Gives.cons {e : Event S} {es : List (Event S)}
    (he : (host.answer e.call s).1 = e.reply) (hes : host.Gives (host.answer e.call s).2 es) :
    host.Gives s (e :: es) := by
  intro before e' later h
  cases before with
  | nil =>
    obtain ⟨rfl, -⟩ := List.cons.inj h
    exact he
  | cons first before =>
    obtain ⟨rfl, hrest⟩ := List.cons.inj h
    exact hes before e' later hrest

/-- A run leaves its host where its calls have brought it. -/
theorem Program.run_state (host : Host S σ) (p : Program S α) (s : σ) :
    (run host p s).state = host.after s (run host p s).events := by
  induction p generalizing s with
  | done value => rfl
  | cut => rfl
  | call c next ih => exact ih _ _

/-- The calls of a run are answered as the host stands at each. -/
theorem Program.run_gives (host : Host S σ) (p : Program S α) (s : σ) :
    host.Gives s (run host p s).events := by
  induction p generalizing s with
  | done value => exact Host.gives_nil
  | cut => exact Host.gives_nil
  | call c next ih => exact .cons rfl (ih _ _)

end Standing

theorem Outcome.ext {S : Signature} {σ α : Type} {o o' : Outcome S σ α}
    (hresult : o.result = o'.result) (hevents : o.events = o'.events)
    (hstate : o.state = o'.state) : o = o' := by
  obtain ⟨_, _, _⟩ := o
  obtain rfl : _ = o'.result := hresult
  obtain rfl : _ = o'.events := hevents
  obtain rfl : _ = o'.state := hstate
  rfl

namespace Task

variable {ε ε' α β σ : Type}

/-- A task as the program it is. -/
abbrev program (t : Task ε α) : Program hostSignature (Except ε α) := ExceptT.run t

/-! ## What a run comes to -/

/-- How an outcome is: `good` holds of the value, the events and the state if there is a
value, and `bad` of the error if there is one. Without either, the task was cut off. -/
def Ends (good : α → List (Event hostSignature) → σ → Prop)
    (bad : Option ε → List (Event hostSignature) → σ → Prop)
    (o : Outcome hostSignature σ (Except ε α)) : Prop :=
  match o.result with
  | some (.ok a) => good a o.events o.state
  | some (.error e) => bad (some e) o.events o.state
  | none => bad none o.events o.state

/-- The run of a task from a state ends as described. -/
def Ensures (host : Host hostSignature σ) (t : Task ε α) (s : σ)
    (good : α → List (Event hostSignature) → σ → Prop)
    (bad : Option ε → List (Event hostSignature) → σ → Prop) : Prop :=
  Ends good bad (Program.run host t.program s)

section Ends

variable {good good' : α → List (Event hostSignature) → σ → Prop}
  {bad bad' : Option ε → List (Event hostSignature) → σ → Prop}
  {o : Outcome hostSignature σ (Except ε α)}

theorem Ends.mono (h : Ends good bad o) (hgood : ∀ a es s, good a es s → good' a es s)
    (hbad : ∀ e es s, bad e es s → bad' e es s) : Ends good' bad' o := by
  unfold Ends at h ⊢
  rcases hr : o.result with _ | e | a
  · rw [hr] at h; exact hbad _ _ _ h
  · rw [hr] at h; exact hbad _ _ _ h
  · rw [hr] at h; exact hgood _ _ _ h

theorem Ends.of_ok {a : α} (h : Ends good bad o) (hr : o.result = some (.ok a)) :
    good a o.events o.state := by
  unfold Ends at h
  rw [hr] at h
  exact h

theorem Ends.of_error {e : ε} (h : Ends good bad o) (hr : o.result = some (.error e)) :
    bad (some e) o.events o.state := by
  unfold Ends at h
  rw [hr] at h
  exact h

/-- A run that can only end well does so. -/
theorem Ends.succeeds (h : Ends good (fun _ _ _ => False) o) :
    ∃ a, o.result = some (.ok a) ∧ good a o.events o.state := by
  unfold Ends at h
  rcases hr : o.result with _ | e | a
  · rw [hr] at h; exact h.elim
  · rw [hr] at h; exact h.elim
  · rw [hr] at h; exact ⟨a, rfl, h⟩

end Ends

section Ensures

variable {host : Host hostSignature σ} {s : σ}
  {good good' : α → List (Event hostSignature) → σ → Prop}
  {bad bad' : Option ε → List (Event hostSignature) → σ → Prop}

theorem ensures_pure {a : α} (h : good a [] s) : Ensures host (pure a : Task ε α) s good bad := h

theorem ensures_throw {e : ε} (h : bad (some e) [] s) :
    Ensures host (throw e : Task ε α) s good bad := h

theorem ensures_cut (h : bad none [] s) : Ensures host (cut : Task ε α) s good bad := h

theorem ensures_ofExcept {answer : Except ε α} (hok : ∀ a, answer = .ok a → good a [] s)
    (herror : ∀ e, answer = .error e → bad (some e) [] s) :
    Ensures host (ofExcept answer) s good bad := by
  cases answer with
  | ok a => exact hok a rfl
  | error e => exact herror e rfl

theorem ensures_need {c : Call} {wrap : c.Failure → ε}
    {good : c.Value → List (Event hostSignature) → σ → Prop}
    (hok : ∀ v s', host.answer ⟨c, false⟩ s = (.ok v, s') → good v [⟨⟨c, false⟩, .ok v⟩] s')
    (herror : ∀ e s', host.answer ⟨c, false⟩ s = (.error e, s') →
      bad (some (wrap e)) [⟨⟨c, false⟩, .error e⟩] s') :
    Ensures host (need c wrap) s good bad := by
  rcases hr : host.answer ⟨c, false⟩ s with ⟨e | v, s'⟩
  · have h := herror e s' hr
    have hrun : Program.run host (need c wrap).program s
        = ⟨some (.error (wrap e)), [⟨⟨c, false⟩, .error e⟩], s'⟩ := by
      show Program.run host (.call ⟨c, false⟩ fun reply => .done (reply.mapError wrap)) s = _
      simp only [Program.run, hr]
      rfl
    unfold Ensures
    rw [hrun]
    exact h
  · have h := hok v s' hr
    have hrun : Program.run host (need c wrap).program s
        = ⟨some (.ok v), [⟨⟨c, false⟩, .ok v⟩], s'⟩ := by
      show Program.run host (.call ⟨c, false⟩ fun reply => .done (reply.mapError wrap)) s = _
      simp only [Program.run, hr]
      rfl
    unfold Ensures
    rw [hrun]
    exact h

theorem ensures_attempt {c : Call}
    {good : Except c.Failure c.Value → List (Event hostSignature) → σ → Prop}
    (h : ∀ reply s', host.answer ⟨c, true⟩ s = (reply, s') → good reply [⟨⟨c, true⟩, reply⟩] s') :
    Ensures host (attempt c : Task ε _) s good bad := h _ _ rfl

/-- What holds of the state a run leaves holds however it ends. -/
theorem ensures_state {t : Task ε α} {P : σ → Prop} (h : P (Program.run host t.program s).state) :
    t.Ensures host s (fun _ _ s' => P s') fun _ _ s' => P s' := by
  unfold Ensures Ends
  split <;> exact h

theorem ensures_any (t : Task ε α) :
    t.Ensures host s (fun _ _ _ => True) fun _ _ _ => True := ensures_state trivial

/-- What is known of the same run may be put together. -/
theorem Ensures.and {t : Task ε α} (h : Ensures host t s good bad)
    (h' : Ensures host t s good' bad') :
    Ensures host t s (fun a es s' => good a es s' ∧ good' a es s')
      (fun e es s' => bad e es s' ∧ bad' e es s') := by
  unfold Ensures Ends at *
  rcases hr : (Program.run host t.program s).result with _ | e | a
  · rw [hr] at h h'; exact ⟨h, h'⟩
  · rw [hr] at h h'; exact ⟨h, h'⟩
  · rw [hr] at h h'; exact ⟨h, h'⟩

/-- A task that ends one way ends any way that follows from it. -/
theorem Ensures.mono {t : Task ε α} (h : Ensures host t s good bad)
    (hgood : ∀ a es s', good a es s' → good' a es s')
    (hbad : ∀ e es s', bad e es s' → bad' e es s') : Ensures host t s good' bad' :=
  Ends.mono h hgood hbad

/-- A sequence ends as its second part does after the first one succeeded, or as the first
one does. -/
theorem Ensures.bind {t : Task ε α} {f : α → Task ε β}
    {mid : α → List (Event hostSignature) → σ → Prop}
    {good : β → List (Event hostSignature) → σ → Prop}
    (ht : Ensures host t s mid bad)
    (hf : ∀ a es s', mid a es s' →
      Ensures host (f a) s' (fun b more => good b (es ++ more))
        (fun e more => bad e (es ++ more))) :
    Ensures host (t >>= f) s good bad := by
  have hrun := Program.run_bind host t.program (ExceptT.bindCont f) s
  unfold Ensures Ends at ht ⊢
  rw [show (t >>= f).program = t.program >>= ExceptT.bindCont f from rfl, hrun]
  -- Only a first part that succeeds lets the second one run at all.
  rcases hr : (Program.run host t.program s).result with _ | e | a
  · rw [hr] at ht; exact ht
  · rw [hr] at ht
    simpa only [ExceptT.bindCont, Program.run_pure, List.append_nil] using ht
  · rw [hr] at ht
    exact hf a _ _ ht

/-- Turning the error of a task into another one changes nothing else about its run. -/
theorem Ensures.mapError {t : Task ε α} {f : ε → ε'}
    {bad : Option ε' → List (Event hostSignature) → σ → Prop}
    (h : Ensures host t s good (fun e => bad (e.map f))) :
    Ensures host (t.mapError f) s good bad := by
  have hrun := Program.run_bind host t.program (fun r => .done (r.mapError f)) s
  unfold Ensures Ends at h ⊢
  rw [show (t.mapError f).program = t.program >>= fun r => .done (r.mapError f) from rfl, hrun]
  rcases hr : (Program.run host t.program s).result with _ | e | a
  · rw [hr] at h; exact h
  · rw [hr] at h
    simp only [Program.run, List.append_nil]
    exact h
  · rw [hr] at h
    simp only [Program.run, List.append_nil]
    exact h

end Ensures

/-! ## Runs of sequences -/

section Sequences

variable {host : Host hostSignature σ} {s : σ} {t : Task ε α} {f : α → Task ε β}

/-- A first part that succeeds is followed by the second one. -/
theorem run_bind_of_ok {a : α} (h : (Program.run host t.program s).result = some (.ok a)) :
    Program.run host (t >>= f).program s =
      let rest := Program.run host (f a).program (Program.run host t.program s).state
      { rest with events := (Program.run host t.program s).events ++ rest.events } := by
  have hrun := Program.run_bind host t.program (ExceptT.bindCont f) s
  rw [h] at hrun
  exact hrun

/-- A first part that fails is all there is. -/
theorem run_bind_of_error {e : ε} (h : (Program.run host t.program s).result = some (.error e)) :
    Program.run host (t >>= f).program s =
      ⟨some (.error e), (Program.run host t.program s).events,
        (Program.run host t.program s).state⟩ := by
  have hrun : Program.run host (t >>= f).program s = _ :=
    Program.run_bind host t.program (ExceptT.bindCont f) s
  rw [hrun, h]
  simp only [ExceptT.bindCont, Program.run_pure, List.append_nil]

theorem run_need (c : Call) (wrap : c.Failure → ε) :
    Program.run host (need c wrap).program s =
      ⟨some ((host.answer ⟨c, false⟩ s).1.mapError wrap),
        [⟨⟨c, false⟩, (host.answer ⟨c, false⟩ s).1⟩], (host.answer ⟨c, false⟩ s).2⟩ := rfl

theorem run_mapError (g : ε → ε') :
    Program.run host (t.mapError g).program s =
      ⟨(Program.run host t.program s).result.map (·.mapError g),
        (Program.run host t.program s).events, (Program.run host t.program s).state⟩ := by
  have hrun : Program.run host (t.mapError g).program s = _ :=
    Program.run_bind host t.program (fun r => .done (r.mapError g)) s
  rw [hrun]
  cases (Program.run host t.program s).result with
  | none => rfl
  | some r => simp only [Program.run, List.append_nil, Option.map_some]

end Sequences

end Task

end DevVm
