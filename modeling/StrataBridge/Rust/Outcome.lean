import Mathlib.Tactic.Common
import Mathlib.Algebra.GroupWithZero.Nat

/-!
# Outcomes of fallible methods on a mutable receiver

A Rust method `fn f(&mut self, …) -> Result<T, E>` ends in one of three ways. It returns
`Ok` or `Err`, and in both cases the receiver keeps whatever was written to it before the
return; or it panics, and the value of the receiver is never looked at again. `Outcome`
records the three ends together with the receiver, so that a handler which writes first and
fails later differs from one that checks first.
-/

namespace Rust

/-- The end of a call of a method with a mutable receiver of type `σ`. The receiver stands
beside the result, also beside an error; a panic leaves neither. -/
inductive Outcome (σ ε α : Type) where
  | ok (s : σ) (a : α)
  | err (s : σ) (e : ε)
  | panic (msg : String)
  deriving DecidableEq, Repr

/-- A computation without a receiver that either returns or panics with a message. -/
abbrev MayPanic (α : Type) : Type := Except String α

section MayPanic

variable {α β : Type} {x : MayPanic α} {f : α → MayPanic β} {l : List α}

theorem MayPanic.bind_eq_ok {b : β} : (x >>= f) = .ok b ↔ ∃ a, x = .ok a ∧ f a = .ok b := by
  cases x with
  | error e => exact ⟨nofun, nofun⟩
  | ok a =>
    refine ⟨fun h => ⟨a, rfl, h⟩, ?_⟩
    rintro ⟨a', ha, h⟩
    cases ha
    exact h

theorem MayPanic.exists_bind {a : α} (hx : x = .ok a) (hf : ∃ b, f a = .ok b) :
    ∃ b, (x >>= f) = .ok b := by
  obtain ⟨b, hb⟩ := hf
  exact ⟨b, MayPanic.bind_eq_ok.mpr ⟨a, hx, hb⟩⟩

theorem MayPanic.forall₂_of_mapM {bs : List β} (h : l.mapM f = .ok bs) :
    List.Forall₂ (fun a b => f a = .ok b) l bs := by
  induction l generalizing bs with
  | nil =>
    cases h
    exact .nil
  | cons a l ih =>
    rw [List.mapM_cons] at h
    obtain ⟨b, hb, h⟩ := MayPanic.bind_eq_ok.mp h
    obtain ⟨bs', hbs', h⟩ := MayPanic.bind_eq_ok.mp h
    cases h
    exact .cons hb (ih hbs')

theorem MayPanic.mapM_ok (h : ∀ a ∈ l, ∃ b, f a = .ok b) :
    ∃ bs, l.mapM f = .ok bs ∧ ∀ b ∈ bs, ∃ a ∈ l, f a = .ok b := by
  induction l with
  | nil => exact ⟨[], rfl, by simp⟩
  | cons a l ih =>
    obtain ⟨b, hb⟩ := h a (by simp)
    obtain ⟨bs, hbs, hall⟩ := ih fun a ha => h a (by simp [ha])
    refine ⟨b :: bs, by rw [List.mapM_cons, hb, hbs]; rfl, fun b' hb' => ?_⟩
    rcases List.mem_cons.mp hb' with rfl | hb'
    · exact ⟨a, by simp, hb⟩
    · obtain ⟨a', ha', hf⟩ := hall b' hb'
      exact ⟨a', by simp [ha'], hf⟩

end MayPanic

namespace Outcome

variable {σ τ ε ε' α β ο : Type}

def IsErr : Outcome σ ε α → Prop
  | .err _ _ => True
  | _ => False

def IsPanic : Outcome σ ε α → Prop
  | .panic _ => True
  | _ => False

instance (r : Outcome σ ε α) : Decidable r.IsErr := by
  cases r <;> unfold IsErr <;> infer_instance

instance (r : Outcome σ ε α) : Decidable r.IsPanic := by
  cases r <;> unfold IsPanic <;> infer_instance

variable (s : σ) {r : Outcome σ ε α} (f : α → β) (msg : String) {P : ε → Prop} (e : ε) (a : α)

@[simp] theorem isErr_ok : ¬(ok s a : Outcome σ ε α).IsErr := id
@[simp] theorem isErr_err : (err s e : Outcome σ ε α).IsErr := trivial
@[simp] theorem isErr_panic : ¬(panic msg : Outcome σ ε α).IsErr := id
@[simp] theorem isPanic_ok : ¬(ok s a : Outcome σ ε α).IsPanic := id
@[simp] theorem isPanic_err : ¬(err s e : Outcome σ ε α).IsPanic := id
@[simp] theorem isPanic_panic : (panic msg : Outcome σ ε α).IsPanic := trivial

/-- The `?` operator: go on with the receiver the first call left, unless it failed. -/
def bind (r : Outcome σ ε α) (f : σ → α → Outcome σ ε β) : Outcome σ ε β :=
  match r with
  | .ok s a => f s a
  | .err s e => .err s e
  | .panic msg => .panic msg

def map : Outcome σ ε α → Outcome σ ε β
  | .ok s a => .ok s (f a)
  | .err s e => .err s e
  | .panic msg => .panic msg

/-- Read the receiver of a call as part of a larger one, and its error as another's. -/
def embed (f : σ → τ) (g : ε → ε') : Outcome σ ε α → Outcome τ ε' α
  | .ok s a => .ok (f s) a
  | .err s e => .err (f s) (g e)
  | .panic msg => .panic msg

/-- `Result::or_else`: on an error, call again on the receiver the error left. -/
def orElse (r : Outcome σ ε α) (f : σ → Outcome σ ε α) : Outcome σ ε α :=
  match r with
  | .err s _ => f s
  | r => r

/-- What the owner of the receiver goes on with after the call: the receiver, and the values
the call handed out. A rejected call hands out nothing; after a panic nothing goes on. -/
def next : Outcome σ ε (List ο) → Option (σ × List ο)
  | .ok s os => some (s, os)
  | .err s _ => some (s, [])
  | .panic _ => none

/-- The receiver after the call and what the call returned; a panic returns nothing. -/
def result : Outcome σ ε α → Option (σ × Except ε α)
  | .ok s a => some (s, .ok a)
  | .err s e => some (s, .error e)
  | .panic _ => none

/-- A loop over a list that calls a method for every element and collects what the calls hand
out; the first failing call ends it. -/
def forEach (f : σ → α → Outcome σ ε (List ο)) (s : σ) : List α → Outcome σ ε (List ο)
  | [] => .ok s []
  | a :: l => (f s a).bind fun s os => (forEach f s l).map (os ++ ·)

@[simp] theorem bind_ok (f : σ → α → Outcome σ ε β) :
    (ok s a).bind f = f s a := rfl
@[simp] theorem bind_err (f : σ → α → Outcome σ ε β) :
    (err s e).bind f = err s e := rfl
@[simp] theorem bind_panic (f : σ → α → Outcome σ ε β) :
    (panic msg : Outcome σ ε α).bind f = panic msg := rfl
@[simp] theorem map_ok (s : σ) (a : α) :
    (ok s a : Outcome σ ε α).map f = ok s (f a) := rfl
@[simp] theorem map_err (s : σ) (e : ε) : (err s e).map f = err s e := rfl
@[simp] theorem map_panic :
    (panic msg : Outcome σ ε α).map f = panic msg := rfl
@[simp] theorem orElse_ok (f : σ → Outcome σ ε α) :
    (ok s a).orElse f = ok s a := rfl
@[simp] theorem orElse_err (f : σ → Outcome σ ε α) :
    (err s e).orElse f = f s := rfl
@[simp] theorem orElse_panic (f : σ → Outcome σ ε α) :
    (panic msg).orElse f = panic msg := rfl
@[simp] theorem embed_ok (f : σ → τ) (g : ε → ε') (s : σ) (a : α) :
    (ok s a).embed f g = ok (f s) a := rfl
@[simp] theorem embed_err (f : σ → τ) (g : ε → ε') (s : σ) (e : ε) :
    (err s e : Outcome σ ε α).embed f g = err (f s) (g e) := rfl
@[simp] theorem embed_panic (f : σ → τ) (g : ε → ε') (msg : String) :
    (panic msg : Outcome σ ε α).embed f g = panic msg := rfl
@[simp] theorem next_ok (os : List ο) :
    (ok s os : Outcome σ ε (List ο)).next = some (s, os) := rfl
@[simp] theorem next_err :
    (err s e : Outcome σ ε (List ο)).next = some (s, []) := rfl
@[simp] theorem next_panic :
    (panic msg : Outcome σ ε (List ο)).next = none := rfl
@[simp] theorem result_ok : (ok s a : Outcome σ ε α).result = some (s, .ok a) := rfl
@[simp] theorem result_err :
    (err s e : Outcome σ ε α).result = some (s, .error e) := rfl
@[simp] theorem result_panic : (panic msg : Outcome σ ε α).result = none := rfl

theorem result_embed (f : σ → τ) (r : Outcome σ ε α) :
    (r.embed f id).result = r.result.map fun q => (f q.1, q.2) := by
  cases r <;> rfl

theorem next_embed (f : σ → τ) (g : ε → ε') (r : Outcome σ ε (List ο)) :
    (r.embed f g).next = r.next.map fun q => (f q.1, q.2) := by
  cases r <;> rfl

theorem next_eq_some {r : Outcome σ ε (List ο)} {s : σ} {os : List ο} :
    r.next = some (s, os) ↔ r = ok s os ∨ os = [] ∧ ∃ e, r = err s e := by
  cases r <;> simp [and_comm]

section Receiver

variable {P Q : σ → Prop} {s s₀ : σ} {a : α} {e : ε} {msg : String} {r : Outcome σ ε α}

/-- Wherever the call returns, the receiver it leaves satisfies `P`. -/
def Leaves (P : σ → Prop) : Outcome σ ε α → Prop
  | .ok s _ => P s
  | .err s _ => P s
  | .panic _ => True

@[simp] theorem leaves_ok :
    (ok s a : Outcome σ ε α).Leaves P ↔ P s := Iff.rfl
@[simp] theorem leaves_err :
    (err s e : Outcome σ ε α).Leaves P ↔ P s := Iff.rfl
@[simp] theorem leaves_panic :
    (panic msg : Outcome σ ε α).Leaves P := trivial

@[simp] theorem leaves_embed {P : τ → Prop} {f : σ → τ} {g : ε → ε'} :
    (r.embed f g).Leaves P ↔ r.Leaves fun s => P (f s) := by
  cases r <;> rfl

theorem Leaves.of_forall (h : ∀ s, P s) (r : Outcome σ ε α) : r.Leaves P := by
  cases r with
  | ok s a => exact h s
  | err s e => exact h s
  | panic msg => trivial

theorem Leaves.mono (h : r.Leaves P) (hPQ : ∀ s, P s → Q s) : r.Leaves Q := by
  cases r with
  | ok s a => exact hPQ s h
  | err s e => exact hPQ s h
  | panic msg => trivial

@[simp] theorem leaves_map {g : α → β} : (r.map g).Leaves P ↔ r.Leaves P := by
  cases r <;> rfl

theorem Leaves.bind {f : σ → α → Outcome σ ε β} (h : r.Leaves P) (herr : ∀ s, P s → Q s)
    (hf : ∀ s a, P s → (f s a).Leaves Q) : (r.bind f).Leaves Q := by
  cases r with
  | ok s a => exact hf s a h
  | err s e => exact herr s h
  | panic msg => trivial

theorem Leaves.forEach {f : σ → α → Outcome σ ε (List ο)} {l : List α} (h : P s)
    (hf : ∀ s, P s → ∀ a ∈ l, (f s a).Leaves P) : (forEach f s l).Leaves P := by
  induction l generalizing s with
  | nil => exact h
  | cons a l ih =>
    refine (hf s h a List.mem_cons_self).bind (fun _ h => h) fun s os hs => ?_
    exact leaves_map.mpr (ih hs fun s hs b hb => hf s hs b (List.mem_cons_of_mem a hb))

/-- If the call returns `Err`, the receiver it leaves satisfies `P`. -/
def ErrLeaves (P : σ → Prop) : Outcome σ ε α → Prop
  | .ok _ _ => True
  | .err s _ => P s
  | .panic _ => True

@[simp] theorem errLeaves_ok :
    (ok s a : Outcome σ ε α).ErrLeaves P := trivial
@[simp] theorem errLeaves_err :
    (err s e : Outcome σ ε α).ErrLeaves P ↔ P s := Iff.rfl
@[simp] theorem errLeaves_panic :
    (panic msg : Outcome σ ε α).ErrLeaves P := trivial

theorem ErrLeaves.mono (h : r.ErrLeaves P) (hPQ : ∀ s, P s → Q s) : r.ErrLeaves Q := by
  cases r with
  | ok s a => trivial
  | err s e => exact hPQ s h
  | panic msg => trivial

@[simp] theorem errLeaves_embed {P : τ → Prop} {f : σ → τ} {g : ε → ε'} :
    (r.embed f g).ErrLeaves P ↔ r.ErrLeaves fun s => P (f s) := by
  cases r <;> rfl

theorem Leaves.of_next {r : Outcome σ ε (List ο)} {os : List ο} (h : r.Leaves P)
    (hn : r.next = some (s, os)) : P s := by
  rcases next_eq_some.mp hn with rfl | ⟨-, e, rfl⟩ <;> exact h

end Receiver

section Values

variable {P Q : ο → Prop} {s s₀ : σ} {os : List ο} {e : ε} {msg : String} {r : Outcome σ ε (List ο)}

/-- If the call returns a list, its elements satisfy `P`. -/
def Emits (P : ο → Prop) : Outcome σ ε (List ο) → Prop
  | .ok _ os => ∀ o ∈ os, P o
  | .err _ _ => True
  | .panic _ => True

@[simp] theorem emits_ok :
    (ok s os : Outcome σ ε (List ο)).Emits P ↔ ∀ o ∈ os, P o := Iff.rfl
@[simp] theorem emits_err : (err s e : Outcome σ ε (List ο)).Emits P := trivial
@[simp] theorem emits_panic : (panic msg : Outcome σ ε (List ο)).Emits P := trivial

@[simp] theorem emits_embed {f : σ → τ} {g : ε → ε'} : (r.embed f g).Emits P ↔ r.Emits P := by
  cases r <;> rfl

theorem Emits.mono (h : r.Emits P) (hPQ : ∀ o, P o → Q o) : r.Emits Q := by
  cases r with
  | ok s os => exact fun o ho => hPQ o (h o ho)
  | err s e => trivial
  | panic msg => trivial

theorem Emits.bind {f : σ → List ο → Outcome σ ε (List ο)} (h : r.Emits P)
    (hf : ∀ s os, (∀ o ∈ os, P o) → (f s os).Emits P) : (r.bind f).Emits P := by
  cases r with
  | ok s os => exact hf s os h
  | err s e => trivial
  | panic msg => trivial

variable {f : σ → α → Outcome σ ε (List ο)}

theorem Emits.forEach {l : List α} (hf : ∀ s, ∀ a ∈ l, (f s a).Emits P) :
    (forEach f s l).Emits P := by
  induction l generalizing s with
  | nil => simp [Outcome.forEach]
  | cons a l ih =>
    have hfirst := hf s a List.mem_cons_self
    rw [Outcome.forEach]
    cases hr : f s a with
    | ok s' os =>
      rw [hr] at hfirst
      have hrest := ih (s := s') fun s b hb => hf s b (List.mem_cons_of_mem a hb)
      rw [bind_ok]
      cases hl : Outcome.forEach f s' l with
      | ok s'' os' =>
        rw [hl] at hrest
        exact fun o ho => (List.mem_append.mp ho).elim (hfirst o) (hrest o)
      | err | panic => trivial
    | err | panic => trivial

theorem Emits.of_next (h : r.Emits P) (hn : r.next = some (s, os)) : ∀ o ∈ os, P o := by
  rcases next_eq_some.mp hn with rfl | ⟨rfl, e, rfl⟩
  · exact h
  · simp

/-- What the caller goes on with, the receiver and the returned list together, satisfies `Q`. -/
def Yields (Q : σ → List ο → Prop) : Outcome σ ε (List ο) → Prop
  | .ok s os => Q s os
  | .err s _ => Q s []
  | .panic _ => True

section Yields

variable {Q R : σ → List ο → Prop}

theorem Yields.of_next (h : r.Yields Q) (hn : r.next = some (s, os)) : Q s os := by
  rcases next_eq_some.mp hn with rfl | ⟨rfl, e, rfl⟩ <;> exact h

theorem Yields.mono (h : r.Yields Q) (hQR : ∀ s os, Q s os → R s os) : r.Yields R := by
  cases r with
  | ok s os => exact hQR s os h
  | err s e => exact hQR s [] h
  | panic msg => trivial

theorem Yields.bind {f : σ → List ο → Outcome σ ε (List ο)} (h : r.Yields Q)
    (herr : ∀ s, Q s [] → R s []) (hf : ∀ s os, Q s os → (f s os).Yields R) :
    (r.bind f).Yields R := by
  cases r with
  | ok s os => exact hf s os h
  | err s e => exact herr s h
  | panic msg => trivial

end Yields

theorem Yields.embed {Q : τ → List ο → Prop} {f : σ → τ} {g : ε → ε'}
    (h : r.Yields fun s os => Q (f s) os) : (r.embed f g).Yields Q := by
  cases r <;> exact h

theorem Leaves.yields {P : σ → Prop} (h : r.Leaves P) (hemits : r.Emits Q) :
    r.Yields fun s os => P s ∧ ∀ o ∈ os, Q o := by
  cases r with
  | ok s os => exact ⟨h, hemits⟩
  | err s e => exact ⟨h, by simp⟩
  | panic msg => trivial

/-- **Counting what a loop hands out.** If the call for `a` keeps `I` and hands out at most `w a`
values that satisfy `p`, the loop hands out at most the sum of the bounds. -/
theorem Yields.forEach_countP {I : σ → Prop} {p : ο → Bool} {w : α → ℕ} {l : List α} (h : I s)
    (hf : ∀ s, I s → ∀ a ∈ l, (f s a).Yields fun s' os => I s' ∧ os.countP p ≤ w a) :
    (forEach f s l).Yields fun s' os => I s' ∧ os.countP p ≤ (l.map w).sum := by
  induction l generalizing s with
  | nil => exact ⟨h, by simp⟩
  | cons a l ih =>
    refine (hf s h a List.mem_cons_self).bind (fun s hs => ⟨hs.1, by simp⟩) fun s os hs => ?_
    have hrest := ih hs.1 fun s hs b hb => hf s hs b (List.mem_cons_of_mem a hb)
    cases hr : forEach f s l with
    | ok s' os' =>
      rw [hr] at hrest
      refine ⟨hrest.1, ?_⟩
      rw [List.countP_append, List.map_cons]
      exact Nat.add_le_add hs.2 hrest.2
    | err s' e =>
      rw [hr] at hrest
      exact ⟨hrest.1, by simp⟩
    | panic msg => trivial

end Values

section Returns

variable {Q R : σ → α → Prop} {s : σ} {a : α} {e : ε} {msg : String} {r : Outcome σ ε α}

@[simp] theorem isPanic_embed {f : σ → τ} {g : ε → ε'} : (r.embed f g).IsPanic ↔ r.IsPanic := by
  cases r <;> rfl

/-- The call returns `Ok`, with a receiver and a value that satisfy `Q`. -/
def Succeeds (Q : σ → α → Prop) : Outcome σ ε α → Prop
  | .ok s a => Q s a
  | .err _ _ => False
  | .panic _ => False

abbrev IsOk (r : Outcome σ ε α) : Prop := r.Succeeds fun _ _ => True

@[simp] theorem succeeds_ok : (ok s a : Outcome σ ε α).Succeeds Q ↔ Q s a := Iff.rfl
@[simp] theorem succeeds_err : ¬(err s e : Outcome σ ε α).Succeeds Q := id
@[simp] theorem succeeds_panic : ¬(panic msg : Outcome σ ε α).Succeeds Q := id

theorem succeeds_iff : r.Succeeds Q ↔ ∃ s a, r = ok s a ∧ Q s a := by
  cases r <;> simp

@[simp] theorem succeeds_embed {Q : τ → α → Prop} {f : σ → τ} {g : ε → ε'} :
    (r.embed f g).Succeeds Q ↔ r.Succeeds fun s a => Q (f s) a := by
  cases r <;> rfl

@[simp] theorem succeeds_map {Q : σ → β → Prop} {f : α → β} :
    (r.map f).Succeeds Q ↔ r.Succeeds fun s a => Q s (f a) := by
  cases r <;> rfl

@[simp] theorem succeeds_bind {Q : σ → β → Prop} {f : σ → α → Outcome σ ε β} :
    (r.bind f).Succeeds Q ↔ r.Succeeds fun s a => (f s a).Succeeds Q := by
  cases r <;> rfl

theorem Succeeds.mono (h : r.Succeeds Q) (hQR : ∀ s a, Q s a → R s a) : r.Succeeds R := by
  cases r with
  | ok s a => exact hQR s a h
  | err s e => exact h
  | panic msg => exact h

theorem IsErr.not_succeeds (h : r.IsErr) : ¬r.Succeeds Q := by
  cases r with
  | ok s a => exact h.elim
  | err s e => exact id
  | panic msg => exact id

/-- It is known beforehand what the call does: it returns `Ok` exactly under the condition, and
then with a receiver and a value that satisfy `Q`. -/
def Decided (r : Outcome σ ε α) (C : Prop) (Q : σ → α → Prop) : Prop :=
  (r.IsOk ↔ C) ∧ ∀ s a, r = ok s a → Q s a

section Decided

variable {C : Prop}

@[simp] theorem decided_ok : (ok s a : Outcome σ ε α).Decided C Q ↔ C ∧ Q s a := by
  simp [Decided]

@[simp] theorem decided_err : (err s e : Outcome σ ε α).Decided C Q ↔ ¬C := by
  simp [Decided]

@[simp] theorem decided_panic : (panic msg : Outcome σ ε α).Decided C Q ↔ ¬C := by
  simp [Decided]

variable (h : r.Decided C Q)
include h

theorem Decided.mono (hQR : ∀ s a, Q s a → R s a) : r.Decided C R :=
  ⟨h.1, fun s a hr => hQR s a (h.2 s a hr)⟩

theorem Decided.of_leaves {P : σ → Prop} (hP : r.Leaves P) :
    r.Decided C fun s a => P s ∧ Q s a :=
  ⟨h.1, fun s a hr => ⟨by rwa [hr] at hP, h.2 s a hr⟩⟩

theorem Decided.succeeds_iff {D : Prop}
    (hR : ∀ s a, C → Q s a → (R s a ↔ D)) : r.Succeeds R ↔ C ∧ D := by
  cases r with
  | ok s a =>
    rw [decided_ok] at h
    simpa [h.1] using hR s a h.1 h.2
  | err s e => simp_all
  | panic msg => simp_all

theorem Decided.embed {R : τ → α → Prop} {f : σ → τ} {g : ε → ε'}
    (hQR : ∀ s a, Q s a → R (f s) a) : (r.embed f g).Decided C R := by
  cases r <;> simp_all

theorem Decided.map {R : σ → β → Prop} {f : α → β}
    (hQR : ∀ s a, Q s a → R s (f a)) : (r.map f).Decided C R := by
  cases r <;> simp_all

theorem Decided.bind {C' : Prop} {R : σ → β → Prop} {f : σ → α → Outcome σ ε β} (hf : ∀ s a, Q s a → (f s a).Decided C' R) :
    (r.bind f).Decided (C ∧ C') R := by
  cases r with
  | ok s a =>
    rw [decided_ok] at h
    simpa [h.1] using hf s a h.2
  | err s e => simp_all
  | panic msg => simp_all

end Decided

end Returns

theorem bind_eq_ok {f : σ → α → Outcome σ ε β} {s' : σ} {b : β} :
    r.bind f = ok s' b ↔ ∃ s a, r = ok s a ∧ f s a = ok s' b := by
  cases r <;> simp

theorem map_eq_ok {f : α → β} {s : σ} {b : β} : r.map f = ok s b ↔ ∃ a, r = ok s a ∧ f a = b := by
  cases r <;> simp

/-- The elements of a list are accepted one after the other, each in what those before it leave. -/
def Along (A : τ → α → Prop) (g : τ → α → τ) : τ → List α → Prop
  | _, [] => True
  | t, a :: l => A t a ∧ Along A g (g t a) l

theorem along_const {A : α → Prop} {g : τ → α → τ} {t : τ} {l : List α} :
    Along (fun _ a => A a) g t l ↔ ∀ a ∈ l, A a := by
  induction l generalizing t with
  | nil => simp [Along]
  | cons a l ih => rw [Along, ih, List.forall_mem_cons]

/-- **A loop does what its calls do**, one after the other, to a view of the receiver and of what
has been handed out so far. -/
theorem Decided.forEach {I : σ → List ο → Prop} {v : σ → List ο → τ} {A : τ → α → Prop}
    {g : τ → α → τ} {f : σ → α → Outcome σ ε (List ο)} {l : List α} {s : σ} (os : List ο)
    (h : I s os)
    (hf : ∀ s os, I s os → ∀ a ∈ l, (f s a).Decided (A (v s os) a) fun s' os' =>
      I s' (os ++ os') ∧ v s' (os ++ os') = g (v s os) a) :
    (forEach f s l).Decided (Along A g (v s os) l) fun s' os' =>
      I s' (os ++ os') ∧ v s' (os ++ os') = l.foldl g (v s os) := by
  induction l generalizing s os with
  | nil => simp [Outcome.forEach, Along, h]
  | cons a l ih =>
    refine (hf s os h a List.mem_cons_self).bind fun s' os' hs' => ?_
    have hrest := ih (os ++ os') hs'.1 fun s os hs b hb => hf s os hs b (List.mem_cons_of_mem a hb)
    rw [hs'.2] at hrest
    exact hrest.map fun _ _ h => by rwa [List.append_assoc] at h

@[simp] theorem isErr_map (r : Outcome σ ε α) : (r.map f).IsErr ↔ r.IsErr := by
  cases r <;> rfl

@[simp] theorem isPanic_map (r : Outcome σ ε α) : (r.map f).IsPanic ↔ r.IsPanic := by
  cases r <;> rfl

/-- If the call fails, then with an error of the given kind. -/
def Raises (P : ε → Prop) : Outcome σ ε α → Prop
  | ok _ _ => True
  | err _ e => P e
  | panic _ => True

@[simp] theorem raises_ok {s : σ} {a : α} :
    (ok s a : Outcome σ ε α).Raises P ↔ True := Iff.rfl
@[simp] theorem raises_err {s : σ} {e : ε} :
    (err s e : Outcome σ ε α).Raises P ↔ P e := Iff.rfl
@[simp] theorem raises_panic {msg : String} :
    (panic msg : Outcome σ ε α).Raises P ↔ True := Iff.rfl

@[simp] theorem raises_map {f : α → β} : (r.map f).Raises P ↔ r.Raises P := by
  cases r <;> rfl

theorem Raises.bind {f : σ → α → Outcome σ ε β} (h : r.Raises P) (hf : ∀ s a, (f s a).Raises P) :
    (r.bind f).Raises P := by
  cases r with
  | ok s a => exact hf s a
  | err s e => exact h
  | panic msg => trivial

end Outcome

end Rust
