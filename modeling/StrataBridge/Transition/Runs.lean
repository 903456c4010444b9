import Mathlib.Tactic.Common

/-!
# Runs of a machine that consumes inputs and hands out outputs

A machine is a partial step function `σ → ι → Option (σ × List ο)`: fed an input, it moves to a
new state and hands out some outputs, or it stops for good. A run is any finite sequence of
steps from a start state whose inputs meet a guard; the guard may look at the state before the
step. Statements about whole runs are then proved from what one step does.
-/

namespace Transition

variable {σ ι ο : Type}

/-- Finite runs from `s₀` through inputs that meet the guard `G`, with the outputs handed out
on the way in order. -/
inductive Run (step : σ → ι → Option (σ × List ο)) (G : σ → ι → Prop) (s₀ : σ) :
    List ο → σ → Prop
  | nil : Run step G s₀ [] s₀
  | snoc {os s i s' os'} (h : Run step G s₀ os s) (hG : G s i)
      (hs : step s i = some (s', os')) : Run step G s₀ (os ++ os') s'

def Reachable (step : σ → ι → Option (σ × List ο)) (G : σ → ι → Prop) (s₀ s : σ) : Prop :=
  ∃ os, Run step G s₀ os s

def logged (step : σ → ι → Option (σ × List ο)) (s : List ι × σ) (i : ι) :
    Option ((List ι × σ) × List ο) :=
  (step s.2 i).map fun r => ((s.1 ++ [i], r.1), r.2)

/-- The machine that hands out, in place of its outputs, every input with the state that met
it. -/
def traced (step : σ → ι → Option (σ × List ο)) (s : σ) (i : ι) : Option (σ × List (σ × ι)) :=
  (step s i).map fun r => (r.1, [(s, i)])

variable {step : σ → ι → Option (σ × List ο)} {G G' : σ → ι → Prop} {s₀ s : σ} {os : List ο}

/-- **Induction over runs.** What holds of no outputs at the start, and is carried by every
guarded step, holds of the outputs and the state of every run. -/
theorem Run.invariant {I : List ο → σ → Prop} (h : Run step G s₀ os s) (h0 : I [] s₀)
    (hstep : ∀ os s i s' os', I os s → G s i → step s i = some (s', os') → I (os ++ os') s') :
    I os s := by
  induction h with
  | nil => exact h0
  | snoc _ hG hs ih => exact hstep _ _ _ _ _ ih hG hs

/-- **Induction over reachable states.** -/
theorem Reachable.invariant {I : σ → Prop} (h : Reachable step G s₀ s) (h0 : I s₀)
    (hstep : ∀ s i s' os', I s → G s i → step s i = some (s', os') → I s') : I s := by
  obtain ⟨os, h⟩ := h
  exact h.invariant (I := fun _ s => I s) h0 fun _ s i s' os' => hstep s i s' os'

theorem Reachable.refl : Reachable step G s₀ s₀ := ⟨[], .nil⟩

theorem Reachable.snoc {i : ι} {s' : σ} {os' : List ο} (h : Reachable step G s₀ s) (hG : G s i)
    (hs : step s i = some (s', os')) : Reachable step G s₀ s' := by
  obtain ⟨os, h⟩ := h
  exact ⟨os ++ os', h.snoc hG hs⟩

theorem Reachable.trans {s' : σ} (h : Reachable step G s₀ s) (h' : Reachable step G s s') :
    Reachable step G s₀ s' :=
  h'.invariant h fun _ _ _ _ h hG hs => h.snoc hG hs

theorem Reachable.of_logged {G : List ι × σ → ι → Prop} {l l' : List ι × σ}
    (h : Reachable (logged step) G l l') : Reachable step (fun _ _ => True) l.2 l'.2 := by
  refine h.invariant (I := fun l' => Reachable step (fun _ _ => True) l.2 l'.2) .refl ?_
  intro m i m' os hm _ hstep
  obtain ⟨⟨s', os'⟩, hs, heq⟩ := Option.map_eq_some_iff.mp hstep
  cases heq
  exact hm.snoc trivial hs

theorem Run.mono (hGG' : ∀ s i, G s i → G' s i) (h : Run step G s₀ os s) :
    Run step G' s₀ os s := by
  induction h with
  | nil => exact .nil
  | snoc _ hG hs ih => exact ih.snoc (hGG' _ _ hG) hs

theorem Reachable.mono (hGG' : ∀ s i, G s i → G' s i) (h : Reachable step G s₀ s) :
    Reachable step G' s₀ s :=
  h.imp fun _ hrun => hrun.mono hGG'

section Exec

variable [∀ s i, Decidable (G s i)]

/-- Feed a list of inputs to the machine, as long as they meet the guard. -/
def exec (step : σ → ι → Option (σ × List ο)) (G : σ → ι → Prop) [∀ s i, Decidable (G s i)]
    (s : σ) : List ι → Option (σ × List ο)
  | [] => some (s, [])
  | i :: is =>
    if G s i then
      match step s i with
      | none => none
      | some (s', os) => (exec step G s' is).map fun r => (r.1, os ++ r.2)
    else none

theorem exec_cons_eq_some {i : ι} {is : List ι} {s' : σ} {os' : List ο}
    (he : exec step G s (i :: is) = some (s', os')) :
    G s i ∧ ∃ s₁ os₁ os₂, step s i = some (s₁, os₁) ∧ exec step G s₁ is = some (s', os₂) ∧
      os' = os₁ ++ os₂ := by
  rw [exec] at he
  split at he
  next hG =>
    refine ⟨hG, ?_⟩
    cases hs : step s i with
    | none => simp [hs] at he
    | some r =>
      obtain ⟨s₁, os₁⟩ := r
      simp only [hs, Option.map_eq_some_iff] at he
      obtain ⟨⟨s₂, os₂⟩, he, heq⟩ := he
      cases heq
      exact ⟨s₁, os₁, os₂, rfl, he, rfl⟩
  next => cases he

theorem Run.append_exec {s' : σ} {os' : List ο} (is : List ι) (h : Run step G s₀ os s)
    (he : exec step G s is = some (s', os')) : Run step G s₀ (os ++ os') s' := by
  induction is generalizing s os os' with
  | nil =>
    obtain ⟨rfl, rfl⟩ := he
    simpa using h
  | cons i is ih =>
    obtain ⟨hG, s₁, os₁, os₂, hs, hrest, rfl⟩ := exec_cons_eq_some he
    rw [← List.append_assoc]
    exact ih (h.snoc hG hs) hrest

end Exec

theorem exists_run_of_exec (step : σ → ι → Option (σ × List ο)) (G : σ → ι → Prop)
    [∀ s i, Decidable (G s i)] (s₀ : σ) (is : List ι) (p : σ → List ο → Bool)
    (h : (exec step G s₀ is).any (fun r => p r.1 r.2) = true) :
    ∃ s os, Run step G s₀ os s ∧ p s os = true := by
  cases he : exec step G s₀ is with
  | none => simp [he] at h
  | some r =>
    rw [he] at h
    exact ⟨r.1, r.2, by simpa using Run.append_exec is .nil he, h⟩

section Decide

variable [∀ s i, Decidable (G s i)]

theorem exists_run_of_decide {Q : List ο → σ → Prop} [∀ os s, Decidable (Q os s)] (is : List ι)
    (h : (exec step G s₀ is).any (fun r => Q r.2 r.1) = true) :
    ∃ os s, Run step G s₀ os s ∧ Q os s := by
  obtain ⟨s, os, hrun, hp⟩ := exists_run_of_exec step G s₀ is (fun s os => Q os s) h
  exact ⟨os, s, hrun, of_decide_eq_true hp⟩

theorem exists_reachable_of_decide {Q : σ → Prop} [∀ s, Decidable (Q s)] (is : List ι)
    (h : (exec step G s₀ is).any (fun r => Q r.1) = true) :
    ∃ s, Reachable step G s₀ s ∧ Q s := by
  obtain ⟨s, os, hrun, hp⟩ := exists_run_of_exec step G s₀ is (fun s _ => Q s) h
  exact ⟨s, ⟨os, hrun⟩, of_decide_eq_true hp⟩

end Decide

/-! ### Guards along a list of inputs -/

section Along

/-- Every input of a list meets the guard where it finds the machine, as far as the machine gets. -/
def Along (step : σ → ι → Option (σ × List ο)) (G : σ → ι → Prop) : σ → List ι → Prop
  | _, [] => True
  | s, i :: is => G s i ∧ ∀ r ∈ step s i, Along step G r.1 is

def observed {α : Type} (step : σ → ι → Option (σ × List ο)) (obs : σ → ι → List α) :
    σ → List ι → List α
  | _, [] => []
  | s, i :: is => obs s i ++
    match step s i with
    | none => []
    | some r => observed step obs r.1 is

theorem along_of_observed {α : Type} {obs : σ → ι → List α} {P : α → Prop} {is : List ι}
    (h : ∀ a ∈ observed step obs s is, P a) : Along step (fun s i => ∀ a ∈ obs s i, P a) s is := by
  induction is generalizing s with
  | nil => trivial
  | cons i is ih =>
    rw [observed] at h
    refine ⟨fun a ha => h a (List.mem_append_left _ ha), fun r hr => ih fun a ha => ?_⟩
    rw [Option.mem_def.mp hr] at h
    exact h a (List.mem_append_right _ ha)

theorem Along.append {is js : List ι} {s' : σ} {os' : List ο} (h : Along step G s (is ++ js))
    (he : exec step (fun _ _ => True) s is = some (s', os')) :
    Along step G s is ∧ Along step G s' js := by
  induction is generalizing s os' with
  | nil =>
    cases he
    exact ⟨trivial, h⟩
  | cons i is ih =>
    obtain ⟨hG, hrest⟩ := h
    obtain ⟨-, s₁, os₁, os₂, hs, he', -⟩ := exec_cons_eq_some he
    obtain ⟨hleft, hright⟩ := ih (hrest (s₁, os₁) hs) he'
    refine ⟨⟨hG, fun r hr => ?_⟩, hright⟩
    obtain rfl := Option.some.inj (hs.symm.trans hr)
    exact hleft

/-- Inputs along which one guard holds, and that are fed under another one, lead to a state that is
reached under both. -/
theorem Reachable.of_along [∀ s i, Decidable (G' s i)] {is : List ι} {s' : σ} {os' : List ο}
    (h : Reachable step (fun s i => G s i ∧ G' s i) s₀ s) (hG : Along step G s is)
    (he : exec step G' s is = some (s', os')) :
    Reachable step (fun s i => G s i ∧ G' s i) s₀ s' := by
  induction is generalizing s os' with
  | nil =>
    cases he
    exact h
  | cons i is ih =>
    obtain ⟨hG', s₁, os₁, os₂, hs, he', -⟩ := exec_cons_eq_some he
    exact ih (h.snoc ⟨hG.1, hG'⟩ hs) (hG.2 (s₁, os₁) hs) he'

end Along

end Transition
