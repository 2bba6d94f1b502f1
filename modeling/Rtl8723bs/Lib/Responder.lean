/-
# Machines that answer, and what their answers cost

A machine takes one event after the other and answers each with a list of outputs.  `run` goes
through a list of events and collects the answers.

What is said about one step is said about a run by three rules: `run_inv` for an invariant,
`run_cost_le` and `run_cost_eq` for a budget (each output costs something, what is left to be spent
is read off the state), and `run_ticks_le` for the number of events of one kind that the machine
survives.
-/
import Mathlib

namespace Responder

variable {S E O : Type} (step : S → E → S × List O)

/-- The state behind the events, and all answers in order. -/
def run (s : S) : List E → S × List O
  | [] => (s, [])
  | e :: es => ((run (step s e).1 es).1, (step s e).2 ++ (run (step s e).1 es).2)

/-- Every event is taken in a state where `P` allows it. -/
def Along (P : S → E → Prop) (s : S) : List E → Prop
  | [] => True
  | e :: es => P s e ∧ Along P (step s e).1 es

/-- What a list of outputs costs. -/
def cost (c : O → Nat) (os : List O) : Nat := (os.map c).sum

variable {step} {s : S} {P Q : S → E → Prop} {c : O → Nat}

@[simp] theorem run_nil : run step s [] = (s, []) := rfl

theorem run_cons_fst (e : E) (es : List E) :
    (run step s (e :: es)).1 = (run step (step s e).1 es).1 := rfl

theorem run_cons_snd (e : E) (es : List E) :
    (run step s (e :: es)).2 = (step s e).2 ++ (run step (step s e).1 es).2 := rfl

@[simp] theorem cost_nil : cost c [] = 0 := rfl

@[simp] theorem cost_cons (o : O) (os : List O) : cost c (o :: os) = c o + cost c os := by
  rw [cost, cost, List.map_cons, List.sum_cons]

@[simp] theorem cost_append (os os' : List O) : cost c (os ++ os') = cost c os + cost c os' := by
  rw [cost, cost, cost, List.map_append, List.sum_append]

theorem cost_eq_zero {os : List O} (h : ∀ o ∈ os, c o = 0) : cost c os = 0 := by
  induction os with
  | nil => rfl
  | cons o os ih =>
    obtain ⟨ho, hos⟩ := List.forall_mem_cons.mp h
    rw [cost_cons, ho, ih hos]

theorem run_append_fst (es fs : List E) :
    (run step s (es ++ fs)).1 = (run step (run step s es).1 fs).1 := by
  induction es generalizing s with
  | nil => rfl
  | cons e es ih => exact ih

theorem Along.mono (h : Along step P s es) (hPQ : ∀ s e, P s e → Q s e) : Along step Q s es := by
  induction es generalizing s with
  | nil => trivial
  | cons e es ih => exact ⟨hPQ s e h.1, ih h.2⟩

/-- A condition on the events alone. -/
theorem along_of_forall {p : E → Prop} (h : ∀ e ∈ es, p e) : Along step (fun _ e => p e) s es := by
  induction es generalizing s with
  | nil => trivial
  | cons e es ih =>
    obtain ⟨he, hes⟩ := List.forall_mem_cons.mp h
    exact ⟨he, ih hes⟩

/-! ## 1. What a run keeps -/

/-- **An invariant** of the steps that `P` allows is one of the runs. -/
theorem run_inv (inv : S → Prop) (hstep : ∀ s e, inv s → P s e → inv (step s e).1) (h : inv s)
    (hP : Along step P s es) : inv (run step s es).1 := by
  induction es generalizing s with
  | nil => exact h
  | cons e es ih => exact ih (hstep s e h hP.1) hP.2

/-! ## 2. What a run costs -/

/-- **A budget**: where the cost of each answer is paid from what the state has left and from what
the event brings, so is the cost of the run. -/
theorem run_cost_le (inv : S → Prop) (left : S → Nat) (brings : E → Nat)
    (hstep : ∀ s e, inv s → P s e → inv (step s e).1)
    (hpay : ∀ s e, inv s → P s e →
      cost c (step s e).2 + left (step s e).1 ≤ left s + brings e)
    (h : inv s) (hP : Along step P s es) :
    cost c (run step s es).2 + left (run step s es).1 ≤ left s + (es.map brings).sum := by
  induction es generalizing s with
  | nil => simp [run]
  | cons e es ih =>
    have hone := hpay s e h hP.1
    have hrest := ih (hstep s e h hP.1) hP.2
    rw [run_cons_fst, run_cons_snd, cost_append, List.map_cons, List.sum_cons]
    omega

/-- **A balance**: the same with nothing lost. -/
theorem run_cost_eq (inv : S → Prop) (left : S → Nat) (brings : E → Nat)
    (hstep : ∀ s e, inv s → P s e → inv (step s e).1)
    (hpay : ∀ s e, inv s → P s e →
      cost c (step s e).2 + left (step s e).1 = left s + brings e)
    (h : inv s) (hP : Along step P s es) :
    cost c (run step s es).2 + left (run step s es).1 = left s + (es.map brings).sum := by
  induction es generalizing s with
  | nil => simp [run]
  | cons e es ih =>
    have hone := hpay s e h hP.1
    have hrest := ih (hstep s e h hP.1) hP.2
    rw [run_cons_fst, run_cons_snd, cost_append, List.map_cons, List.sum_cons]
    omega

/-! ## 3. How long a machine lives -/

/-- What is dead stays dead. -/
theorem live_of_run (inv live : S → Prop) (hstep : ∀ s e, inv s → P s e → inv (step s e).1)
    (hdead : ∀ s e, inv s → P s e → live (step s e).1 → live s) (h : inv s)
    (hP : Along step P s es) (hlive : live (run step s es).1) : live s := by
  induction es generalizing s with
  | nil => exact hlive
  | cons e es ih => exact hdead s e h hP.1 (ih (hstep s e h hP.1) hP.2 hlive)

/-- **Survived events**: where each event that `tick` picks takes one from the rank of a machine
that lives on, and no other adds to it, a machine that is still alive has seen no more of them than
its rank allowed. -/
theorem run_ticks_le (inv live : S → Prop) (rank : S → Nat) (tick : E → Bool)
    (hstep : ∀ s e, inv s → P s e → inv (step s e).1)
    (hdead : ∀ s e, inv s → P s e → live (step s e).1 → live s)
    (hrank : ∀ s e, inv s → P s e → live s → live (step s e).1 →
      (if tick e then 1 else 0) + rank (step s e).1 ≤ rank s)
    (h : inv s) (hP : Along step P s es) (hlive : live (run step s es).1) :
    es.countP tick + rank (run step s es).1 ≤ rank s := by
  induction es generalizing s with
  | nil => simp [run]
  | cons e es ih =>
    have hinv := hstep s e h hP.1
    have hnext := live_of_run inv live hstep hdead hinv hP.2 hlive
    have hone := hrank s e h hP.1 (hdead s e h hP.1 hnext) hnext
    have hrest := ih hinv hP.2 hlive
    rw [run_cons_fst, List.countP_cons]
    omega

end Responder
