import Mathlib.Tactic.Lemma

/-!
# Computations with a log of their accesses

A computation that may fail, together with the accesses it makes until it ends. The log is
kept when the computation fails, and erasing it gives the computation itself.
-/

namespace AccessLog

structure Logged (Access Err α : Type) where
  log : List Access
  result : Except Err α

namespace Logged

variable {Access Err α β : Type}

/-- A computation without an access. -/
def lift (x : Except Err α) : Logged Access Err α := ⟨[], x⟩

/-- One access, and what comes of it. -/
def touch (a : Access) (x : Except Err α) : Logged Access Err α := ⟨[a], x⟩

def bind (x : Logged Access Err α) (f : α → Logged Access Err β) : Logged Access Err β :=
  match x.result with
  | .error e => ⟨x.log, .error e⟩
  | .ok a => ⟨x.log ++ (f a).log, (f a).result⟩

instance : Monad (Logged Access Err) where
  pure a := lift (.ok a)
  bind := bind

@[simp]
lemma result_lift (x : Except Err α) : (lift x : Logged Access Err α).result = x := rfl

@[simp]
lemma result_touch (a : Access) (x : Except Err α) : (touch a x).result = x := rfl

@[simp]
lemma result_pure (a : α) : (pure a : Logged Access Err α).result = .ok a := rfl

/-- Erasing the log erases it from the parts. -/
@[simp]
lemma result_bind (x : Logged Access Err α) (f : α → Logged Access Err β) :
    (x >>= f).result = x.result >>= fun a => (f a).result := by
  change (bind x f).result = _
  rw [bind]
  cases x.result with
  | error e => rfl
  | ok a => rfl

@[simp]
lemma result_ite {condition : Prop} [Decidable condition] (x y : Logged Access Err α) :
    (if condition then x else y).result = if condition then x.result else y.result :=
  apply_ite result condition x y

end Logged

open Logged

/-- Every access is allowed, and so is the error or the result. -/
structure Meets {Access Err α : Type} (allowed : Access → Prop) (raised : Err → Prop)
    (returned : α → Prop) (x : Logged Access Err α) : Prop where
  log : ∀ a ∈ x.log, allowed a
  error : ∀ e, x.result = .error e → raised e
  ok : ∀ r, x.result = .ok r → returned r

namespace Meets

variable {Access Err α β : Type} {allowed : Access → Prop} {raised : Err → Prop}

lemma ret {returned : α → Prop} {a : α} (holds : returned a) :
    Meets allowed raised returned (pure a : Logged Access Err α) where
  log a mem := by cases mem
  error e is := by cases is
  ok r is := by
    cases is
    exact holds

lemma lift {returned : α → Prop} {x : Except Err α} (error : ∀ e, x = .error e → raised e)
    (ok : ∀ r, x = .ok r → returned r) :
    Meets allowed raised returned (Logged.lift x : Logged Access Err α) where
  log a mem := by cases mem
  error := error
  ok := ok

lemma touch {returned : α → Prop} {a : Access} {x : Except Err α} (access : allowed a)
    (error : ∀ e, x = .error e → raised e) (ok : ∀ r, x = .ok r → returned r) :
    Meets allowed raised returned (Logged.touch a x) where
  log a' mem := by
    rw [List.mem_singleton.mp mem]
    exact access
  error := error
  ok := ok

/-- The rule of sequence. -/
lemma bind {between : α → Prop} {returned : β → Prop} {x : Logged Access Err α}
    {f : α → Logged Access Err β} (first : Meets allowed raised between x)
    (next : ∀ a, between a → Meets allowed raised returned (f a)) :
    Meets allowed raised returned (x >>= f) := by
  change Meets allowed raised returned (Logged.bind x f)
  rw [Logged.bind]
  cases result : x.result with
  | error e =>
    refine ⟨first.log, ?_, ?_⟩
    · intro e' is
      cases is
      exact first.error e result
    · intro r is
      cases is
  | ok a =>
    have after := next a (first.ok a result)
    refine ⟨?_, after.error, after.ok⟩
    intro a' mem
    rcases List.mem_append.mp mem with before | behind
    · exact first.log a' before
    · exact after.log a' behind

/-- The rule of consequence. -/
lemma weaken {returned returned' : α → Prop} {x : Logged Access Err α}
    (meets : Meets allowed raised returned x) (weaker : ∀ r, returned r → returned' r) :
    Meets allowed raised returned' x :=
  ⟨meets.log, meets.error, fun r is => weaker r (meets.ok r is)⟩

end Meets

end AccessLog
