import StrataBridge.Rust.Outcome
import Mathlib.Data.List.Basic
import Mathlib.Tactic.Common

/-!
# Loops that fill an array

A loop such as `array::try_from_fn` calls a function for every element and keeps the values. The
first call that does not return a value ends the loop, and the loop ends as that call did. Calls
have no receiver here.
-/

namespace Rust.Outcome

variable {ε α β γ : Type}

/-- Call a function for every element of a list and collect the values; the first call without a
value ends the loop. -/
def traverse (f : α → Outcome Unit ε β) : List α → Outcome Unit ε (List β)
  | [] => .ok () []
  | a :: l => (f a).bind fun _ b => (traverse f l).map (b :: ·)

variable {f : α → Outcome Unit ε β}

@[simp] theorem traverse_nil : traverse f [] = ok () [] := rfl

theorem traverse_cons (a : α) (l : List α) :
    traverse f (a :: l) = (f a).bind fun _ b => (traverse f l).map (b :: ·) := rfl

theorem traverse_append (l₁ l₂ : List α) :
    traverse f (l₁ ++ l₂) = (traverse f l₁).bind fun _ bs₁ => (traverse f l₂).map (bs₁ ++ ·) := by
  induction l₁ with
  | nil => cases h : traverse f l₂ <;> simp [h]
  | cons a l₁ ih =>
    rw [List.cons_append, traverse_cons, ih, traverse_cons]
    cases f a with
    | err s e => rfl
    | panic msg => rfl
    | ok s b => cases traverse f l₁ with
      | err s e => rfl
      | panic msg => rfl
      | ok s bs => cases traverse f l₂ <;> rfl

theorem traverse_map (g : γ → α) (l : List γ) :
    traverse f (l.map g) = traverse (fun c => f (g c)) l := by
  induction l with
  | nil => rfl
  | cons c l ih => rw [List.map_cons, traverse_cons, traverse_cons, ih]

theorem traverse_fun_map (g : β → γ) (l : List α) :
    traverse (fun a => (f a).map g) l = (traverse f l).map (List.map g) := by
  induction l with
  | nil => rfl
  | cons a l ih =>
    rw [traverse_cons, traverse_cons, ih]
    cases f a with
    | err s e => rfl
    | panic msg => rfl
    | ok s b => cases traverse f l <;> rfl

theorem traverse_eq_ok {g : α → β} {l : List α} (h : ∀ a ∈ l, f a = ok () (g a)) :
    traverse f l = ok () (l.map g) := by
  induction l with
  | nil => rfl
  | cons a l ih =>
    rw [traverse_cons, h a List.mem_cons_self, ih fun b hb => h b (List.mem_cons_of_mem a hb)]
    rfl

/-- A loop that returns has called its function successfully for every element, and the values are
as many. -/
theorem Succeeds.of_traverse {P : β → Prop} {l : List α} {bs : List β}
    (hf : ∀ a b, f a = ok () b → P b) (h : traverse f l = ok () bs) :
    bs.length = l.length ∧ ∀ b ∈ bs, P b := by
  induction l generalizing bs with
  | nil =>
    obtain rfl : [] = bs := by simpa using h
    simp
  | cons a l ih =>
    obtain ⟨⟨⟩, b, hb, hrest⟩ := bind_eq_ok.mp h
    obtain ⟨bs', hbs', rfl⟩ := map_eq_ok.mp hrest
    obtain ⟨hlen, hall⟩ := ih hbs'
    exact ⟨congrArg (· + 1) hlen, List.forall_mem_cons.mpr ⟨hf a b hb, hall⟩⟩

theorem isOk_traverse_iff {l : List α} : (traverse f l).IsOk ↔ ∀ a ∈ l, (f a).IsOk := by
  induction l with
  | nil => simp
  | cons a l ih =>
    rw [List.forall_mem_cons, ← ih, traverse_cons]
    cases f a with
    | err s e => simp
    | panic msg => simp
    | ok s b => simp

theorem isPanic_bind_iff {r : Outcome Unit ε α} {g : Unit → α → Outcome Unit ε β} :
    (r.bind g).IsPanic ↔ r.IsPanic ∨ ∃ a, r = ok () a ∧ (g () a).IsPanic := by
  cases r <;> simp

/-- **The call that ends a loop.** A loop panics if some call panics and all calls before it return
a value. -/
theorem isPanic_traverse_iff {l : List α} :
    (traverse f l).IsPanic ↔
      ∃ l₁ a l₂, l = l₁ ++ a :: l₂ ∧ (∀ x ∈ l₁, (f x).IsOk) ∧ (f a).IsPanic := by
  induction l with
  | nil => simp
  | cons b l ih =>
    rw [traverse_cons, isPanic_bind_iff]
    simp only [isPanic_map, ih]
    constructor
    · rintro (hb | ⟨c, hc, l₁, a, l₂, rfl, hok, ha⟩)
      · exact ⟨[], b, l, rfl, by simp, hb⟩
      · refine ⟨b :: l₁, a, l₂, rfl, List.forall_mem_cons.mpr ⟨?_, hok⟩, ha⟩
        rw [hc]
        trivial
    · rintro ⟨_ | ⟨b', l₁⟩, a, l₂, hl, hok, ha⟩
      · cases hl
        exact .inl ha
      · cases hl
        obtain ⟨⟨⟩, c, hc, -⟩ := succeeds_iff.mp (hok b (by simp))
        exact .inr ⟨c, hc, l₁, a, l₂, rfl, fun x hx => hok x (by simp [hx]), ha⟩

theorem isPanic_traverse_range_iff {f : ℕ → Outcome Unit ε β} {n : ℕ} :
    (traverse f (List.range n)).IsPanic ↔ ∃ k < n, (∀ j < k, (f j).IsOk) ∧ (f k).IsPanic := by
  rw [isPanic_traverse_iff]
  constructor
  · rintro ⟨l₁, k, l₂, hl, hok, hk⟩
    have hlen : n = l₁.length + (l₂.length + 1) := by
      simpa using congrArg List.length hl
    have hget : l₁.length = k := by
      have h := congrArg (·[l₁.length]?) hl
      simpa [hlen] using h
    have hpre : l₁ = List.range k := by
      have h := congrArg (List.take k) hl
      rw [List.take_range, Nat.min_eq_left (by omega), ← hget, List.take_left'] at h
      · rw [← h, hget]
      · rfl
    refine ⟨k, by omega, fun j hj => hok j ?_, hk⟩
    rw [hpre]
    exact List.mem_range.mpr hj
  · rintro ⟨k, hkn, hok, hk⟩
    refine ⟨List.range k, k, (List.range (n - k - 1)).map (k + 1 + ·), ?_,
      fun j hj => hok j (List.mem_range.mp hj), hk⟩
    have hn : n = k + 1 + (n - k - 1) := by omega
    nth_rewrite 1 [hn]
    rw [List.range_add, List.range_succ, List.append_assoc, List.singleton_append]

/-- **A loop in a loop.** Rounds of `d` calls each are one loop over all calls. -/
theorem traverse_nested {f : ℕ → Outcome Unit ε β} (d n : ℕ) :
    (traverse (fun i => traverse (fun j => f (j + i * d)) (List.range d)) (List.range n)).map
        List.flatten = traverse f (List.range (n * d)) := by
  induction n with
  | zero => simp
  | succ n ih =>
    have hlast : traverse (fun j => f (j + n * d)) (List.range d) =
        traverse f ((List.range d).map (n * d + ·)) := by
      rw [traverse_map]
      simp only [Nat.add_comm]
    rw [Nat.succ_mul, List.range_add (n := n * d), traverse_append, ← ih, List.range_succ,
      traverse_append, traverse_cons, hlast]
    cases traverse (fun i => traverse (fun j => f (j + i * d)) (List.range d)) (List.range n) with
    | err s e => rfl
    | panic msg => rfl
    | ok s bs => cases traverse f ((List.range d).map (n * d + ·)) <;> simp

end Rust.Outcome
