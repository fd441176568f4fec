/-!
# Programs that make calls

A program is what it does next: it is done, or it makes a call and goes on with the
reply. Which calls there are and what each is answered with is a `Signature`; who answers
them is a `Host` with a state of its own. Running a program against a host gives its
result, every call with its reply in order, and the host's state at the end.

A program that repeats itself for as long as the replies ask for it is written with an
allowance of rounds, and is `cut` off when that runs out; `result = none` keeps this apart
from everything a program can answer.

`run_bind` is the one fact a proof about runs rests on: a sequence of two programs runs as
the first one followed by the second one.
-/

namespace DevVm

/-- The calls a program may make, and the type of each call's reply. -/
structure Signature where
  Call : Type
  Reply : Call → Type

/-- A program over the calls of a signature. -/
inductive Program (S : Signature) (α : Type) where
  | done (value : α)
  | cut
  | call (c : S.Call) (next : S.Reply c → Program S α)

/-- A call that was made, with the reply it got. -/
structure Event (S : Signature) where
  call : S.Call
  reply : S.Reply call

/-- Whoever answers calls, from a state and with a new state. -/
structure Host (S : Signature) (σ : Type) where
  answer : (c : S.Call) → σ → S.Reply c × σ

/-- What became of a program: its result unless it was cut off, the calls it made, and the
host's state after the last of them. -/
structure Outcome (S : Signature) (σ α : Type) where
  result : Option α
  events : List (Event S)
  state : σ

namespace Program

variable {S : Signature} {α β σ : Type}

/-- One program after the other, which may depend on the first one's value. -/
def bind (p : Program S α) (f : α → Program S β) : Program S β :=
  match p with
  | done value => f value
  | cut => cut
  | call c next => call c fun reply => (next reply).bind f

instance : Monad (Program S) where
  pure := done
  bind := bind

/-- The program that makes one call and hands back its reply. -/
def ask (c : S.Call) : Program S (S.Reply c) := call c done

/-- A program run against a host. -/
def run (host : Host S σ) : Program S α → σ → Outcome S σ α
  | done value, s => ⟨some value, [], s⟩
  | cut, s => ⟨none, [], s⟩
  | call c next, s =>
    let (reply, s) := host.answer c s
    let rest := run host (next reply) s
    { rest with events := ⟨c, reply⟩ :: rest.events }

/-- A program over other calls: every call becomes the program that finds its reply. -/
def refine {T : Signature} (f : (c : S.Call) → Program T (S.Reply c)) :
    Program S α → Program T α
  | done value => done value
  | cut => cut
  | call c next => (f c).bind fun reply => (next reply).refine f

@[simp] theorem run_pure (host : Host S σ) (value : α) (s : σ) :
    run host (pure value : Program S α) s = ⟨some value, [], s⟩ := rfl

@[simp] theorem run_cut (host : Host S σ) (s : σ) :
    run host (cut : Program S α) s = ⟨none, [], s⟩ := rfl

/-- A sequence of programs runs as the first one, and then, unless it was cut off, the
second one from the state the first one left. -/
theorem run_bind (host : Host S σ) (p : Program S α) (f : α → Program S β) (s : σ) :
    run host (p >>= f) s =
      match (run host p s).result with
      | none => ⟨none, (run host p s).events, (run host p s).state⟩
      | some value =>
        let rest := run host (f value) (run host p s).state
        { rest with events := (run host p s).events ++ rest.events } := by
  induction p generalizing s with
  | done value => rfl
  | cut => rfl
  | call c next ih =>
    show run host (call c fun reply => (next reply).bind f) s = _
    simp only [run]
    have := ih (host.answer c s).1 (host.answer c s).2
    simp only [Bind.bind] at this
    rw [this]
    cases (run host (next (host.answer c s).1) (host.answer c s).2).result <;> rfl

end Program

/-- Of two steps that may fail, what comes of both comes of each. -/
theorem exists_of_bind_ok {ε α β : Type} {x : Except ε α} {f : α → Except ε β} {b : β}
    (h : (x >>= f) = .ok b) : ∃ a, x = .ok a ∧ f a = .ok b := by
  cases x with
  | error e => cases h
  | ok a => exact ⟨a, rfl, h⟩

end DevVm
