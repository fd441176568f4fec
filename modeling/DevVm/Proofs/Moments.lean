import DevVm.Proofs.Calm

/-!
# Every call of a run

What a command keeps it has to keep at every moment, since it can be seen, and left off, at
any of its calls. A program that is cut off after `k` calls (`Program.upTo k`) leaves the
events and the state of that moment.

`Program.Heeds` says of one run that each of its calls is made when a rule allows it. The rule
sees the events so far, the host's state and the call. What one call keeps that obeys the rule
holds at all moments (`Heeds.keeps`, `Heeds.upTo`), and what the rule says of a call holds
wherever the call is found among the events (`Heeds.at_call`).

`Task.Heeds` is the same for tasks, by standings. Of a task that makes harmless calls only
nothing has to be looked at but which calls these are (`Task.Makes`): what it comes to is what
it `Yields`, and every one of its calls obeys (`Yields.heeds`). That it is not cut off either, and
what value it may have, is `Task.Completes`.
-/

namespace DevVm

namespace Program

variable {S : Signature} {α β σ : Type}

/-- The program, cut off once it has made so many calls. -/
def upTo : Nat → Program S α → Program S α
  | _, done value => done value
  | _, cut => cut
  | 0, call _ _ => cut
  | k + 1, call c next => call c fun reply => upTo k (next reply)

/-- Every call of a run is made when the rule allows it, and the run ends as described: with a
result unless it is cut off, with all events, those before the run included, and in a state. -/
def Heeds (host : Host S σ) (rule : List (Event S) → σ → S.Call → Prop)
    (ends : Option α → List (Event S) → σ → Prop) : Program S α → List (Event S) → σ → Prop
  | done value, es, s => ends (some value) es s
  | cut, es, s => ends none es s
  | call c next, es, s =>
    rule es s c ∧
      Heeds host rule ends (next (host.answer c s).1) (es ++ [⟨c, (host.answer c s).1⟩])
        (host.answer c s).2

variable {host : Host S σ} {rule : List (Event S) → σ → S.Call → Prop}
  {ends ends' : Option α → List (Event S) → σ → Prop} {p : Program S α} {es : List (Event S)}
  {s : σ}

theorem Heeds.mono (h : p.Heeds host rule ends es s)
    (hends : ∀ result es s, ends result es s → ends' result es s) :
    p.Heeds host rule ends' es s := by
  induction p generalizing es s with
  | done value => exact hends _ _ _ h
  | cut => exact hends _ _ _ h
  | call c next ih => exact ⟨h.1, ih _ h.2⟩

theorem Heeds.bind {f : α → Program S β} {mid : Option α → List (Event S) → σ → Prop}
    {ends : Option β → List (Event S) → σ → Prop} (hp : p.Heeds host rule mid es s)
    (hf : ∀ a es s, mid (some a) es s → (f a).Heeds host rule ends es s)
    (hcut : ∀ es s, mid none es s → ends none es s) : (p >>= f).Heeds host rule ends es s := by
  induction p generalizing es s with
  | done value => exact hf value es s hp
  | cut => exact hcut es s hp
  | call c next ih => exact ⟨hp.1, ih _ hp.2⟩

/-- The events before the run come first among all events. -/
theorem Heeds.extends (h : p.Heeds host rule ends es s) :
    p.Heeds host rule (fun result es' s => ends result es' s ∧ es <+: es') es s := by
  induction p generalizing es s with
  | done value => exact ⟨h, List.prefix_refl es⟩
  | cut => exact ⟨h, List.prefix_refl es⟩
  | call c next ih =>
    refine ⟨h.1, (ih _ h.2).mono fun result es' s hends => ⟨hends.1, ?_⟩⟩
    exact (List.prefix_append es _).trans hends.2

/-- A run that is cut off somewhere heeds what the whole run does. -/
theorem Heeds.upTo (h : p.Heeds host rule ends es s) (k : Nat) :
    (p.upTo k).Heeds host rule (fun _ _ _ => True) es s := by
  induction p generalizing es s k with
  | done value => cases k <;> exact trivial
  | cut => cases k <;> exact trivial
  | call c next ih =>
    cases k with
    | zero => exact trivial
    | succ k => exact ⟨h.1, ih _ h.2 k⟩

/-- Whatever else is known of how the run ends can be added. -/
theorem Heeds.knowing (known : Option α → List (Event S) → σ → Prop)
    (h : p.Heeds host rule ends es s)
    (hends : known (run host p s).result (es ++ (run host p s).events) (run host p s).state) :
    p.Heeds host rule (fun result es s => ends result es s ∧ known result es s) es s := by
  induction p generalizing es s with
  | done value => exact ⟨h, by simpa only [run, List.append_nil] using hends⟩
  | cut => exact ⟨h, by simpa only [run, List.append_nil] using hends⟩
  | call c next ih =>
    refine ⟨h.1, ih _ h.2 ?_⟩
    simpa only [run, List.append_assoc, List.singleton_append] using hends

/-- How the run ends. -/
theorem Heeds.ends_run (h : p.Heeds host rule ends es s) :
    ends (run host p s).result (es ++ (run host p s).events) (run host p s).state := by
  induction p generalizing es s with
  | done value => simpa only [run, List.append_nil, Heeds] using h
  | cut => simpa only [run, List.append_nil, Heeds] using h
  | call c next ih =>
    have hnext := ih _ h.2
    simpa only [run, List.append_assoc, List.singleton_append] using hnext

/-- What every call keeps that obeys the rule, the run keeps. -/
theorem Heeds.keeps {I : List (Event S) → σ → Prop}
    (step : ∀ es s c, rule es s c → I es s →
      I (es ++ [⟨c, (host.answer c s).1⟩]) (host.answer c s).2)
    (h : p.Heeds host rule ends es s) (hI : I es s) :
    I (es ++ (run host p s).events) (run host p s).state := by
  induction p generalizing es s with
  | done value => simpa only [run, List.append_nil] using hI
  | cut => simpa only [run, List.append_nil] using hI
  | call c next ih =>
    have hnext := ih _ h.2 (step es s c h.1 hI)
    simpa only [run, List.append_assoc, List.singleton_append] using hnext

/-- Each call of the run obeys the rule, given the events before it and the state it met. -/
theorem Heeds.at_call (h : p.Heeds host rule ends es s) {before after : List (Event S)}
    {e : Event S} (hevents : (run host p s).events = before ++ e :: after) :
    rule (es ++ before) (run host (p.upTo before.length) s).state e.call := by
  induction p generalizing es s before with
  | done value => cases before <;> cases hevents
  | cut => cases before <;> cases hevents
  | call c next ih =>
    cases before with
    | nil =>
      have hfirst : e = ⟨c, (host.answer c s).1⟩ := (List.cons.inj hevents).1.symm
      rw [hfirst, List.append_nil]
      exact h.1
    | cons first before =>
      obtain ⟨hfirst, hrest⟩ := List.cons.inj hevents
      have hnext := ih _ h.2 hrest
      rw [← hfirst, List.append_cons]
      exact hnext

theorem Makes.bind {allowed : S.Call → Prop} {f : α → Program S β} (hp : p.Makes allowed)
    (hf : ∀ a, (f a).Makes allowed) : (p >>= f).Makes allowed := by
  induction p with
  | done value => exact hf value
  | cut => exact trivial
  | call c next ih => exact ⟨hp.1, fun reply => ih reply (hp.2 reply)⟩

theorem Makes.mono {allowed allowed' : S.Call → Prop} (hp : p.Makes allowed)
    (h : ∀ c, allowed c → allowed' c) : p.Makes allowed' := by
  induction p with
  | done value => exact trivial
  | cut => exact trivial
  | call c next ih => exact ⟨h c hp.1, fun reply => ih reply (hp.2 reply)⟩

/-- The program makes only calls that are allowed, is not cut off anywhere, and ends with a good
value, whatever its calls are answered with. -/
def Completes (allowed : S.Call → Prop) (good : α → Prop) : Program S α → Prop
  | done value => good value
  | cut => False
  | call c next => allowed c ∧ ∀ reply, (next reply).Completes allowed good

section Completes

variable {allowed allowed' : S.Call → Prop} {good : α → Prop}

theorem Completes.bind {f : α → Program S β} {there : β → Prop} (hp : p.Completes allowed good)
    (hf : ∀ a, good a → (f a).Completes allowed there) :
    (p >>= f).Completes allowed there := by
  induction p with
  | done value => exact hf value hp
  | cut => exact hp.elim
  | call c next ih => exact ⟨hp.1, fun reply => ih reply (hp.2 reply)⟩

theorem Completes.mono (hp : p.Completes allowed good) (h : ∀ c, allowed c → allowed' c) :
    p.Completes allowed' good := by
  induction p with
  | done value => exact hp
  | cut => exact hp.elim
  | call c next ih => exact ⟨h c hp.1, fun reply => ih reply (hp.2 reply)⟩

theorem Completes.makes (hp : p.Completes allowed good) : p.Makes allowed := by
  induction p with
  | done value => exact trivial
  | cut => exact hp.elim
  | call c next ih => exact ⟨hp.1, fun reply => ih reply (hp.2 reply)⟩

theorem Completes.result (hp : p.Completes allowed good) (host : Host S σ) (s : σ) :
    ∃ value, (run host p s).result = some value ∧ good value := by
  induction p generalizing s with
  | done value => exact ⟨value, rfl, hp⟩
  | cut => exact hp.elim
  | call c next ih => exact ih _ (hp.2 _) _

end Completes

/-- Which calls a run makes of a program that makes only certain ones. -/
theorem Makes.events {allowed : S.Call → Prop} (hp : p.Makes allowed) :
    ∀ e ∈ (run host p s).events, allowed e.call := by
  induction p generalizing s with
  | done value => intro e he; cases he
  | cut => intro e he; cases he
  | call c next ih =>
    intro e he
    rcases List.mem_cons.mp he with rfl | hrest
    · exact hp.1
    · exact ih _ (hp.2 _) e hrest

/-- If every call a program may make obeys the rule, all there is to know is how it ends. -/
theorem Makes.heeds {allowed : S.Call → Prop} (hp : p.Makes allowed)
    (hrule : ∀ es s c, allowed c → rule es s c)
    (hends : ends (run host p s).result (es ++ (run host p s).events) (run host p s).state) :
    p.Heeds host rule ends es s := by
  induction p generalizing es s with
  | done value => simpa only [run, List.append_nil, Heeds] using hends
  | cut => simpa only [run, List.append_nil, Heeds] using hends
  | call c next ih =>
    refine ⟨hrule es s c hp.1, ih _ (hp.2 _) ?_⟩
    simpa only [run, List.append_assoc, List.singleton_append] using hends

/-- What all calls of a run keep, the run keeps. -/
theorem run_keeps_of_events {allowed : S.Call → Prop} {R : σ → Prop}
    (step : ∀ s c, allowed c → R s → R (host.answer c s).2)
    (hevents : ∀ e ∈ (run host p s).events, allowed e.call) (h : R s) :
    R (run host p s).state := by
  induction p generalizing s with
  | done value => exact h
  | cut => exact h
  | call c next ih =>
    have hfirst := hevents _ List.mem_cons_self
    exact ih _ (fun e he => hevents e (List.mem_cons_of_mem _ he)) (step s c hfirst h)

end Program

/-- A call that was answered. -/
def Call.answered (c : Call) (value : c.Value) : Event hostSignature := ⟨⟨c, false⟩, .ok value⟩

namespace Task

open DevVm.World

variable {ε ε' α β : Type} {allowed allowed' : Call → Prop}

/-! ## Which calls a task makes -/

/-- Every call the task may make is allowed. -/
def Makes (allowed : Call → Prop) (t : Task ε α) : Prop :=
  t.program.Makes fun c : HostCall => allowed c.call

theorem makes_pure (a : α) : Makes allowed (pure a : Task ε α) := trivial

theorem makes_need {c : Call} {wrap : c.Failure → ε} (h : allowed c) :
    Makes allowed (need c wrap) := ⟨h, fun _ => trivial⟩

theorem makes_attempt {c : Call} (h : allowed c) : Makes allowed (attempt c : Task ε _) :=
  ⟨h, fun _ => trivial⟩

theorem Makes.bind {t : Task ε α} {f : α → Task ε β} (ht : Makes allowed t)
    (hf : ∀ a, Makes allowed (f a)) : Makes allowed (t >>= f) := by
  have hcont : ∀ r, (ExceptT.bindCont f r).Makes fun c : HostCall => allowed c.call := by
    intro r
    cases r with
    | ok a => exact hf a
    | error e => exact trivial
  exact Program.Makes.bind ht hcont

theorem Makes.mapError {t : Task ε α} {f : ε → ε'} (ht : Makes allowed t) :
    Makes allowed (t.mapError f) := Program.Makes.bind ht fun _ => trivial

theorem Makes.mono {t : Task ε α} (ht : Makes allowed t) (h : ∀ c, allowed c → allowed' c) :
    Makes allowed' t := Program.Makes.mono ht fun c => h c.call

/-- The task makes only calls that are allowed, is not cut off anywhere, and its value, if it has
one, is good. -/
def Completes (allowed : Call → Prop) (t : Task ε α) (good : α → Prop) : Prop :=
  t.program.Completes (fun c : HostCall => allowed c.call) fun result =>
    ∀ a, result = .ok a → good a

section Completes

variable {good : α → Prop}

theorem completes_pure {a : α} (h : good a) : Completes allowed (pure a : Task ε α) good := by
  intro a' heq
  rw [← Except.ok.inj heq]
  exact h

theorem completes_throw {e : ε} : Completes allowed (throw e : Task ε α) good := nofun

theorem completes_ofExcept {answer : Except ε α} :
    Completes allowed (ofExcept answer) fun _ => True := fun _ _ => trivial

theorem completes_need {c : Call} {wrap : c.Failure → ε} (h : allowed c) :
    Completes allowed (need c wrap) fun _ => True := ⟨h, fun _ _ _ => trivial⟩

theorem completes_attempt {c : Call} (h : allowed c) :
    Completes allowed (attempt c : Task ε _) fun _ => True := ⟨h, fun _ _ _ => trivial⟩

theorem Completes.bind {t : Task ε α} {f : α → Task ε β} {there : β → Prop}
    (ht : Completes allowed t good) (hf : ∀ a, good a → Completes allowed (f a) there) :
    Completes allowed (t >>= f) there := by
  refine Program.Completes.bind ht fun result hresult => ?_
  cases result with
  | ok a => exact hf a (hresult a rfl)
  | error e => exact nofun

theorem Completes.mapError {t : Task ε α} {f : ε → ε'} (ht : Completes allowed t good) :
    Completes allowed (t.mapError f) good := by
  refine Program.Completes.bind ht fun result hresult a heq => ?_
  cases result with
  | ok a' => exact hresult a (congrArg Except.ok (Except.ok.inj heq))
  | error e => cases heq

theorem Completes.mono {t : Task ε α} (ht : Completes allowed t good)
    (h : ∀ c, allowed c → allowed' c) : Completes allowed' t good :=
  Program.Completes.mono ht fun c => h c.call

theorem Completes.makes {t : Task ε α} (ht : Completes allowed t good) : Makes allowed t :=
  Program.Completes.makes ht

end Completes

/-! ## Runs that heed a rule -/

/-- How a run has ended: `good` holds of its value, or `bad` of its error, or of none if it was
cut off, and both of all events and of the standing. -/
def Ended (good : α → List (Event hostSignature) → Standing → Prop)
    (bad : Option ε → List (Event hostSignature) → Standing → Prop) :
    Option (Except ε α) → List (Event hostSignature) → Standing → Prop
  | some (.ok a), es, s => good a es s
  | some (.error e), es, s => bad (some e) es s
  | none, es, s => bad none es s

/-- Every call the task makes in a world of a standing is made when the rule allows it, and the
task ends as described. -/
def Heeds (n : String) (rule : List (Event hostSignature) → Standing → HostCall → Prop)
    (t : Task ε α) (es : List (Event hostSignature)) (s : Standing)
    (good : α → List (Event hostSignature) → Standing → Prop)
    (bad : Option ε → List (Event hostSignature) → Standing → Prop) : Prop :=
  ∀ w : World, w.standing n = s →
    t.program.Heeds World.host (fun es w c => rule es (w.standing n) c)
      (fun result es w => Ended good bad result es (w.standing n)) es w

variable {n : String} {rule : List (Event hostSignature) → Standing → HostCall → Prop}
  {es : List (Event hostSignature)} {s : Standing}
  {good good' : α → List (Event hostSignature) → Standing → Prop}
  {bad bad' : Option ε → List (Event hostSignature) → Standing → Prop}

theorem heeds_pure {a : α} (h : good a es s) : Heeds n rule (pure a : Task ε α) es s good bad := by
  intro w hw
  subst hw
  exact h

theorem heeds_throw {e : ε} (h : bad (some e) es s) :
    Heeds n rule (throw e : Task ε α) es s good bad := by
  intro w hw
  subst hw
  exact h

theorem heeds_cut (h : bad none es s) : Heeds n rule (cut : Task ε α) es s good bad := by
  intro w hw
  subst hw
  exact h

theorem heeds_ofExcept {answer : Except ε α} (hok : ∀ a, answer = .ok a → good a es s)
    (herror : ∀ e, answer = .error e → bad (some e) es s) :
    Heeds n rule (ofExcept answer) es s good bad := by
  intro w hw
  subst hw
  cases answer with
  | ok a => exact hok a rfl
  | error e => exact herror e rfl

/-- A call is made if it may be, and has its effect if it is answered. -/
theorem heeds_need {c : Call} {wrap : c.Failure → ε}
    {good : c.Value → List (Event hostSignature) → Standing → Prop} (hrule : rule es s ⟨c, false⟩)
    (hok : ∀ v, s.Says n c v → good v (es ++ [c.answered v]) (s.effect n c))
    (herror : ∀ e, bad (some (wrap e)) (es ++ [⟨⟨c, false⟩, .error e⟩]) s) :
    Heeds n rule (need c wrap) es s good bad := by
  intro w hw
  subst hw
  refine ⟨hrule, ?_⟩
  rcases hr : World.host.answer ⟨c, false⟩ w with ⟨e | v, w'⟩
  · have hkept : w'.standing n = w.standing n := standing_of_error hr
    show bad (some (wrap e)) _ (w'.standing n)
    rw [hkept]
    exact herror e
  · obtain ⟨heffect, hvalue⟩ := standing_of_ok (n := n) hr
    show good v _ (w'.standing n)
    rw [heffect]
    exact hok v hvalue

/-- A call whose failure is an answer like any other. -/
theorem heeds_attempt {c : Call}
    {good : Except c.Failure c.Value → List (Event hostSignature) → Standing → Prop}
    (hrule : rule es s ⟨c, true⟩)
    (hok : ∀ v, s.Says n c v → good (.ok v) (es ++ [⟨⟨c, true⟩, .ok v⟩]) (s.effect n c))
    (herror : ∀ e, good (.error e) (es ++ [⟨⟨c, true⟩, .error e⟩]) s) :
    Heeds n rule (attempt c : Task ε _) es s good bad := by
  intro w hw
  subst hw
  refine ⟨hrule, ?_⟩
  rcases hr : World.host.answer ⟨c, true⟩ w with ⟨e | v, w'⟩
  · have hkept : w'.standing n = w.standing n := standing_of_error hr
    show good (.error e) _ (w'.standing n)
    rw [hkept]
    exact herror e
  · obtain ⟨heffect, hvalue⟩ := standing_of_ok (n := n) hr
    show good (.ok v) _ (w'.standing n)
    rw [heffect]
    exact hok v hvalue

theorem Heeds.mono {t : Task ε α} (h : Heeds n rule t es s good bad)
    (hgood : ∀ a es s, good a es s → good' a es s) (hbad : ∀ e es s, bad e es s → bad' e es s) :
    Heeds n rule t es s good' bad' := by
  intro w hw
  refine (h w hw).mono fun result es w hends => ?_
  rcases result with _ | e | a
  · exact hbad _ _ _ hends
  · exact hbad _ _ _ hends
  · exact hgood _ _ _ hends

theorem Heeds.extends {t : Task ε α} (h : Heeds n rule t es s good bad) :
    Heeds n rule t es s (fun a es' s' => good a es' s' ∧ es <+: es') bad := by
  intro w hw
  refine (h w hw).extends.mono fun result es' w' hends => ?_
  rcases result with _ | e | a
  · exact hends.1
  · exact hends.1
  · exact hends

theorem Heeds.bind {t : Task ε α} {f : α → Task ε β}
    {mid : α → List (Event hostSignature) → Standing → Prop}
    {good : β → List (Event hostSignature) → Standing → Prop}
    (ht : Heeds n rule t es s mid bad)
    (hf : ∀ a es s, mid a es s → Heeds n rule (f a) es s good bad) :
    Heeds n rule (t >>= f) es s good bad := by
  intro w hw
  refine Program.Heeds.bind (ht w hw) ?_ fun _ _ hcut => hcut
  intro result es w hmid
  cases result with
  | ok a => exact hf a es _ hmid w rfl
  | error e => exact hmid

/-- How a run ends that heeds a rule. -/
theorem Heeds.ensures {t : Task ε α} (h : Heeds n rule t [] s good bad) {w : World}
    (hw : w.standing n = s) :
    Ensures World.host t w (fun a es w' => good a es (w'.standing n))
      (fun e es w' => bad e es (w'.standing n)) := by
  have hends := (h w hw).ends_run
  unfold Ensures Ends
  rcases hr : (Program.run World.host t.program w).result with _ | e | a
  · rw [hr] at hends; exact hends
  · rw [hr] at hends; exact hends
  · rw [hr] at hends; exact hends

/-- What holds of a run that ends with an error. -/
theorem Heeds.of_error {t : Task ε α} (h : Heeds n rule t [] s good bad) {w : World}
    (hw : w.standing n = s) {e : ε} (hresult : (w.run t).result = some (.error e)) :
    bad (some e) (w.run t).events ((w.run t).state.standing n) := by
  have hends : Ended good bad (w.run t).result ([] ++ (w.run t).events)
      ((w.run t).state.standing n) := (h w hw).ends_run
  rw [hresult] at hends
  exact hends

/-- A call, and what follows it if it is answered. -/
theorem heeds_call {c : Call} {wrap : c.Failure → ε} {f : c.Value → Task ε β}
    {good : β → List (Event hostSignature) → Standing → Prop} (hrule : rule es s ⟨c, false⟩)
    (herror : ∀ e, bad (some (wrap e)) (es ++ [⟨⟨c, false⟩, .error e⟩]) s)
    (hok : ∀ v, s.Says n c v →
      Heeds n rule (f v) (es ++ [c.answered v]) (s.effect n c) good bad) :
    Heeds n rule (need c wrap >>= f) es s good bad := by
  have hcall : Heeds n rule (need c wrap) es s
      (fun v es' s' => s.Says n c v ∧ es' = es ++ [c.answered v] ∧ s' = s.effect n c) bad :=
    heeds_need hrule (fun v hv => ⟨hv, rfl, rfl⟩) herror
  refine hcall.bind fun v es' s' hmade => ?_
  obtain ⟨hv, rfl, rfl⟩ := hmade
  exact hok v hv

theorem Heeds.mapError {t : Task ε α} {f : ε → ε'}
    {bad : Option ε' → List (Event hostSignature) → Standing → Prop}
    (h : Heeds n rule t es s good fun e => bad (e.map f)) :
    Heeds n rule (t.mapError f) es s good bad := by
  intro w hw
  refine Program.Heeds.bind (h w hw) ?_ fun _ _ hcut => hcut
  intro result es w hends
  cases result with
  | ok a => exact hends
  | error e => exact hends

/-- What a task yields holds when it has been carried out call by call. -/
theorem Heeds.yielding {t : Task ε α} {there : α → Standing → Prop} {left : Standing → Prop}
    (h : Heeds n rule t es s good bad) (hyields : Yields n False t s there left) :
    Heeds n rule t es s (fun a es' s' => good a es' s' ∧ there a s')
      (fun e es' s' => bad e es' s' ∧ left s') := by
  intro w hw
  have hends := hyields w hw False.elim
  unfold Ensures Ends at hends
  refine (Program.Heeds.knowing (fun result es (w : World) => Ended (fun a _ s' => there a s')
    (fun _ _ s' => left s') result es (w.standing n)) (h w hw) ?_).mono
    fun result es' w' hboth => ?_
  · rcases hr : (Program.run World.host t.program w).result with _ | e | a
    · rw [hr] at hends
      exact hends.2
    · rw [hr] at hends
      exact hends.2
    · rw [hr] at hends
      exact hends.1
  · rcases result with _ | e | a
    · exact hboth
    · exact hboth
    · exact hboth

/-! ## Harmless tasks -/

/-- There may be more events now, but only of calls that are allowed. -/
def More (allowed : Call → Prop) (es es' : List (Event hostSignature)) : Prop :=
  ∃ more, es' = es ++ more ∧ ∀ e ∈ more, allowed e.call.call

/-- A task whose calls may be made at any time comes to what it yields. -/
theorem Yields.heeds {t : Task ε α} {good : α → Standing → Prop} {bad : Standing → Prop}
    (h : Yields n False t s good bad) (ht : Makes allowed t)
    (hrule : ∀ es s (c : HostCall), allowed c.call → rule es s c) :
    Heeds n rule t es s (fun a es' s' => good a s' ∧ More allowed es es')
      (fun _ es' s' => bad s' ∧ More allowed es es') := by
  intro w hw
  have hmore : More allowed es (es ++ (w.run t).events) := ⟨_, rfl, Program.Makes.events ht⟩
  have hends := h w hw False.elim
  refine Program.Makes.heeds ht (fun es w c => hrule es (w.standing n) c) ?_
  unfold Ensures Ends at hends
  rcases hr : (Program.run World.host t.program w).result with _ | e | a
  · rw [hr] at hends
    exact ⟨hends.2, hmore⟩
  · rw [hr] at hends
    exact ⟨hends.2, hmore⟩
  · rw [hr] at hends
    exact ⟨hends.1, hmore⟩

end Task

end DevVm
