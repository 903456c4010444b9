import Mathlib.Data.List.Basic

/-!
# Sequences in serialization formats

A value that is written as a sequence announces a length and hands over elements one by one. A
visitor that reads it asks for one element after the other. What it is offered is the business of
the format: all that was written, or as many elements as were announced. A visitor that reads what a
writer writes gets the value back exactly when it is offered the elements of the value first.
-/

namespace Serde

variable {τ ε ω α β : Type}

/-- An error of the format, or of a visitor that was offered too few elements. -/
inductive DeError (ε : Type) where
  | format (e : ε)
  | invalidLength (len : ℕ)
  deriving DecidableEq, Repr

/-- A visitor, as a function of the elements that it is offered. -/
abbrev Visit (τ ε : Type) := StateT (List τ) (Except (DeError ε))

/-- `SeqAccess::next_element` where an element is needed. At the end of the elements the format has
failed, or the visitor reports a length. -/
def nextElement (failed : Option ε) (len : ℕ) : Visit τ ε τ
  | [] => .error (failed.elim (.invalidLength len) .format)
  | x :: rest => .ok (x, rest)

def Visit.both (p : Visit τ ε α) (q : Visit τ ε β) : Visit τ ε (α × β) := do
  let a ← p
  let b ← q
  pure (a, b)

/-- The visitor reads exactly what `write` writes. -/
def Reads (p : Visit τ ε α) (write : α → List τ) : Prop :=
  ∀ s a rest, p s = .ok (a, rest) ↔ s = write a ++ rest

theorem reads_nextElement (failed : Option ε) (len : ℕ) :
    Reads (nextElement (τ := τ) failed len) fun x => [x] := by
  intro s a rest
  cases s <;> simp [nextElement]

theorem bind_eq_ok_iff {p : Visit τ ε α} {q : α → Visit τ ε β} {s : List τ} {b : β}
    {rest : List τ} :
    (p >>= q) s = .ok (b, rest) ↔ ∃ a mid, p s = .ok (a, mid) ∧ q a mid = .ok (b, rest) := by
  change (p s >>= fun r => q r.1 r.2) = _ ↔ _
  cases p s with
  | error e => simp [bind, Except.bind]
  | ok r =>
    obtain ⟨a, mid⟩ := r
    simp [bind, Except.bind]

theorem Reads.both {p : Visit τ ε α} {q : Visit τ ε β} {write : α → List τ} {write' : β → List τ}
    (hp : Reads p write) (hq : Reads q write') :
    Reads (p.both q) fun x => write x.1 ++ write' x.2 := by
  rintro s ⟨a, b⟩ rest
  simp only [Visit.both, bind_eq_ok_iff, hp _ _ _, hq _ _ _]
  constructor
  · rintro ⟨a', _, rfl, b', _, rfl, h⟩
    cases h
    rw [List.append_assoc]
  · rintro rfl
    exact ⟨a, _, List.append_assoc .., b, _, rfl, rfl⟩

/-- An array is read element by element. -/
theorem Reads.ofFnM {n : ℕ} {f : Fin n → Visit τ ε α} {write : α → List τ}
    (h : ∀ i, Reads (f i) write) : Reads (Vector.ofFnM f) fun v => v.toList.flatMap write := by
  induction n with
  | zero =>
    intro s v rest
    obtain rfl : v = #v[] := Vector.eq_empty
    rw [Vector.ofFnM_zero]
    constructor
    · rintro ⟨⟩
      rfl
    · rintro rfl
      rfl
  | succ n ih =>
    intro s v rest
    simp only [Vector.ofFnM_succ, bind_eq_ok_iff, ih (fun i => h i.castSucc) _ _ _, h _ _ _ _]
    constructor
    · rintro ⟨v', _, rfl, a, _, rfl, heq⟩
      cases heq
      rw [Vector.toList_push, List.flatMap_append, List.flatMap_singleton, List.append_assoc]
    · rintro rfl
      obtain ⟨v', a, rfl⟩ : ∃ (v' : Vector α n) (a : α), v = v'.push a :=
        ⟨v.pop, v.back, (Vector.push_pop_back v).symm⟩
      refine ⟨v', _, ?_, a, rest, rfl, rfl⟩
      rw [Vector.toList_push, List.flatMap_append, List.flatMap_singleton, List.append_assoc]

theorem reads_elements {n : ℕ} (failed : Option ε) (len : Fin n → ℕ) :
    Reads (Vector.ofFnM fun i => nextElement (τ := τ) failed (len i)) Vector.toList := by
  have h := Reads.ofFnM fun i => reads_nextElement (τ := τ) failed (len i)
  simpa only [List.flatMap_singleton'] using h

/-! ### Formats -/

/-- What a format does with sequences: how it writes one whose length is announced, which elements
it offers a visitor, whether it fails after them, and whether it accepts what a visitor leaves. -/
structure SeqFormat (τ ε ω : Type) where
  write : ℕ → List τ → Except ε ω
  access : ω → List τ × Option ε
  finish : ω → List τ → Except ε Unit

namespace SeqFormat

variable (F : SeqFormat τ ε ω)

/-- A sequence whose length was announced as it is, is offered as it was written. -/
def SelfConsistent : Prop :=
  ∀ xs : List τ, ∃ w, F.write xs.length xs = .ok w ∧ F.access w = (xs, none) ∧
    F.finish w [] = .ok ()

/-- A value is written with its announced length and read by a visitor. -/
def roundTrip (written : ℕ × List τ) (visit : Option ε → Visit τ ε α) : Except (DeError ε) α :=
  match F.write written.1 written.2 with
  | .error e => .error (.format e)
  | .ok w =>
    match visit (F.access w).2 (F.access w).1 with
    | .error e => .error e
    | .ok (a, rest) =>
      match F.finish w rest with
      | .error e => .error (.format e)
      | .ok _ => .ok a

/-- The elements are offered in spite of the announced length. -/
def Offers (written : ℕ × List τ) : Prop :=
  ∃ w rest, F.write written.1 written.2 = .ok w ∧ (F.access w).1 = written.2 ++ rest ∧
    F.finish w rest = .ok ()

theorem roundTrip_eq_ok_iff {visit : Option ε → Visit τ ε α} {write : α → List τ}
    (h : ∀ failed, Reads (visit failed) write) (len : ℕ) (a : α) :
    F.roundTrip (len, write a) visit = .ok a ↔ F.Offers (len, write a) := by
  rw [roundTrip, Offers]
  cases F.write len (write a) with
  | error e => simp
  | ok w =>
    simp only [Except.ok.injEq, exists_eq_left', exists_and_left]
    constructor
    · intro hok
      split at hok
      next => cases hok
      next a' rest hvisit =>
        split at hok
        next => cases hok
        next hfinish =>
          cases hok
          exact ⟨rest, (h _ _ _ _).mp hvisit, hfinish⟩
    · rintro ⟨rest, hoffered, hfinish⟩
      simp only [(h _ _ _ _).mpr hoffered, hfinish]

/-- A format that writes the announced length in front, and offers as many elements. -/
def prefixed : SeqFormat τ Empty (ℕ × List τ) where
  write len xs := .ok (len, xs)
  access w := (w.2.take w.1, none)
  finish _ _ := .ok ()

theorem selfConsistent_prefixed : (prefixed : SeqFormat τ Empty _).SelfConsistent := fun xs =>
  ⟨(xs.length, xs), rfl, by simp [prefixed], rfl⟩

theorem length_le_of_offers_prefixed {written : ℕ × List τ} (h : prefixed.Offers written) :
    written.2.length ≤ written.1 := by
  obtain ⟨_, rest, ⟨⟩, hoffered, -⟩ := h
  have hlen := congrArg List.length hoffered
  simp only [prefixed, List.length_take, List.length_append] at hlen
  omega

end SeqFormat

end Serde
