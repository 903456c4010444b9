import Mathlib.Data.List.Induction
import StrataBridge.Script.Number

/-!
# The stack machine of scripts

A script runs on two stacks of byte strings, and on a stack of conditions that says which of the
branches around an opcode are taken. An opcode either changes the machine or makes the script
fail. Relative timelocks are those of BIP 68, and the opcode that checks them is that of BIP 112.

A program is a list of instructions of any type that has a meaning as a step of the machine, so
that a program may also contain pieces that are known through what they do. The limits on the
number of items and on their sizes are left out.
-/

namespace StrataBridge.Script

open List

variable {n : ℕ} {above xs : List Bytes}

/-! ### Relative timelocks -/

/-- A relative timelock: a number of blocks, or of intervals of 512 seconds. -/
inductive RelativeLock where
  | blocks (n : ℕ)
  | time (n : ℕ)
  deriving DecidableEq, Repr

namespace RelativeLock

/-- What a sequence number stands for: nothing where bit 31 is set, else 16 bits of time or of
blocks, as bit 22 says. -/
def ofSequence (sequence : ℕ) : Option RelativeLock :=
  if sequence.testBit 31 then none
  else if sequence.testBit 22 then some (.time (sequence % 2 ^ 16))
  else some (.blocks (sequence % 2 ^ 16))

/-- Waiting for the second lock is waiting for the first: both are of one kind, and the second is
not shorter. -/
def le : RelativeLock → RelativeLock → Bool
  | .blocks m, .blocks n => m ≤ n
  | .time m, .time n => m ≤ n
  | _, _ => false

/-- Below bit 22 only the lowest 16 bits count. -/
theorem ofSequence_of_lt (h : n < 2 ^ 22) : ofSequence n = some (.blocks (n % 2 ^ 16)) := by
  rw [ofSequence, Nat.testBit_lt_two_pow (h.trans (by decide)), Nat.testBit_lt_two_pow h]
  rfl

end RelativeLock

/-! ### Machine and opcodes -/

/-- What a script sees of the transaction that spends its output: the version, the sequence number
of the input, and which signatures of which keys are valid for it. -/
structure Spending where
  version : ℕ
  sequence : ℕ
  verifies : Bytes → Bytes → Bool
  sha256 : Bytes → Bytes

/-- The check of `OP_CHECKSEQUENCEVERIFY`: the input waits at least as long as the operand says.
An operand with bit 31 asks for nothing. -/
def Spending.checkSequence (ctx : Spending) (operand : ℕ) : Bool :=
  match RelativeLock.ofSequence operand with
  | none => true
  | some lock =>
    2 ≤ ctx.version && (RelativeLock.ofSequence ctx.sequence).any lock.le

/-- The stacks of a running script, their tops first. An opcode is executed when all conditions
hold. -/
structure Machine where
  stack : List Bytes
  altStack : List Bytes
  conditions : List Bool
  deriving DecidableEq, Repr

inductive Op where
  | push (data : Bytes)
  | ifTrue
  | otherwise
  | endIf
  | toAltStack
  | fromAltStack
  | twoDup
  | drop
  | roll
  | size
  | equal
  | equalVerify
  | not
  | add
  | sub
  | boolAnd
  | greaterThan
  | sha256
  | checkSig
  | checkSigVerify
  | checkSequenceVerify
  deriving DecidableEq, Repr

def ofBool (b : Bool) : Bytes := if b then [1] else []

@[simp] theorem castToBool_ofBool (b : Bool) : castToBool (ofBool b) = b := by
  cases b <;> rfl

namespace Op

def int (n : ℤ) : Op := .push (scriptInt n)

def binary (f : ℤ → ℤ → Bytes) : List Bytes → Option (List Bytes)
  | b :: a :: st =>
    match readScriptInt 4 a, readScriptInt 4 b with
    | some a, some b => some (f a b :: st)
    | _, _ => none
  | _ => none

/-- The signature check of tapscript: an empty signature is false, any other has to be valid.
Keys of other lengths than 32 are reserved and accept every signature. -/
def signatureValid (ctx : Spending) (key signature : Bytes) : Option Bool :=
  if key = [] then none
  else if signature = [] then some false
  else if key.length ≠ 32 then some true
  else if ctx.verifies key signature then some true
  else none

/-- An opcode other than a conditional, on the stack and the alternative stack. -/
def execActive (ctx : Spending) : Op → List Bytes → List Bytes → Option (List Bytes × List Bytes)
  | .push data, st, alt => some (data :: st, alt)
  | .toAltStack, x :: st, alt => some (st, x :: alt)
  | .fromAltStack, st, x :: alt => some (x :: st, alt)
  | .twoDup, b :: a :: st, alt => some (b :: a :: b :: a :: st, alt)
  | .drop, _ :: st, alt => some (st, alt)
  | .roll, n :: st, alt =>
    match readScriptInt 4 n with
    | some (.ofNat n) => (st[n]?).map fun x => (x :: st.eraseIdx n, alt)
    | _ => none
  | .size, x :: st, alt => some (scriptInt x.length :: x :: st, alt)
  | .equal, b :: a :: st, alt => some (ofBool (a = b) :: st, alt)
  | .equalVerify, b :: a :: st, alt => if a = b then some (st, alt) else none
  | .not, a :: st, alt => (readScriptInt 4 a).map fun a => (ofBool (a = 0) :: st, alt)
  | .add, st, alt => (binary (fun a b => scriptInt (a + b)) st).map (·, alt)
  | .sub, st, alt => (binary (fun a b => scriptInt (a - b)) st).map (·, alt)
  | .boolAnd, st, alt => (binary (fun a b => ofBool (a ≠ 0 && b ≠ 0)) st).map (·, alt)
  | .greaterThan, st, alt => (binary (fun a b => ofBool (b < a)) st).map (·, alt)
  | .sha256, x :: st, alt => some (ctx.sha256 x :: st, alt)
  | .checkSig, key :: signature :: st, alt =>
    (signatureValid ctx key signature).map fun valid => (ofBool valid :: st, alt)
  | .checkSigVerify, key :: signature :: st, alt =>
    if signatureValid ctx key signature = some true then some (st, alt) else none
  | .checkSequenceVerify, n :: st, alt =>
    match readScriptInt 5 n with
    | some (.ofNat operand) => if ctx.checkSequence operand then some (n :: st, alt) else none
    | _ => none
  | _, _, _ => none

/-- The condition that `OP_IF` reads: in tapscript exactly the two truth values. -/
def condition (x : Bytes) : Option Bool :=
  if x = [1] then some true else if x = [] then some false else none

/-- One opcode. Where a branch around it is not taken, only the conditionals count. -/
def exec (ctx : Spending) (op : Op) (m : Machine) : Option Machine :=
  match op with
  | .ifTrue =>
    if m.conditions.all id then
      match m.stack with
      | [] => none
      | x :: st => (condition x).map fun c => ⟨st, m.altStack, c :: m.conditions⟩
    else some { m with conditions := false :: m.conditions }
  | .otherwise =>
    match m.conditions with
    | [] => none
    | c :: cs => some { m with conditions := (!c) :: cs }
  | .endIf =>
    match m.conditions with
    | [] => none
    | _ :: cs => some { m with conditions := cs }
  | op =>
    if m.conditions.all id then
      (execActive ctx op m.stack m.altStack).map fun s => ⟨s.1, s.2, m.conditions⟩
    else some m

end Op

/-! ### Programs -/

section Run

variable {I J : Type} (step : I → Machine → Option Machine)

/-- The run of a program: the machine after its last instruction, unless one fails. -/
def run : List I → Machine → Option Machine
  | [], m => some m
  | i :: is, m => (step i m).bind (run is)

@[simp] theorem run_nil (m : Machine) : run step [] m = some m := rfl

@[simp] theorem run_cons (i : I) (is : List I) (m : Machine) :
    run step (i :: is) m = (step i m).bind (run step is) := rfl

theorem run_append (p q : List I) (m : Machine) :
    run step (p ++ q) m = (run step p m).bind (run step q) := by
  induction p generalizing m with
  | nil => rfl
  | cons i p ih =>
    rw [cons_append, run_cons, run_cons, Option.bind_assoc]
    exact congrArg _ (funext ih)

variable {step}

theorem run_append_of {p q : List I} {m m' : Machine} (h : run step p m = some m') :
    run step (p ++ q) m = run step q m' := by
  rw [run_append, h, Option.bind_some]

theorem run_map {step' : J → Machine → Option Machine} {f : J → I}
    (h : ∀ j m, step (f j) m = step' j m) (p : List J) (m : Machine) :
    run step (p.map f) m = run step' p m := by
  induction p generalizing m with
  | nil => rfl
  | cons j p ih =>
    rw [map_cons, run_cons, h]
    exact congrArg _ (funext ih)

end Run

/-! ### Loops that move items -/

section Loops

variable (ctx : Spending)

abbrev Machine.top (st alt : List Bytes) : Machine := ⟨st, alt, []⟩

@[simp] theorem exec_push (data : Bytes) (st alt : List Bytes) :
    Op.exec ctx (.push data) (.top st alt) = some (.top (data :: st) alt) := rfl

@[simp] theorem exec_int (n : ℤ) (st alt : List Bytes) :
    Op.exec ctx (.int n) (.top st alt) = some (.top (scriptInt n :: st) alt) := rfl

@[simp] theorem exec_toAltStack (x : Bytes) (st alt : List Bytes) :
    Op.exec ctx .toAltStack (.top (x :: st) alt) = some (.top st (x :: alt)) := rfl

@[simp] theorem exec_fromAltStack (x : Bytes) (st alt : List Bytes) :
    Op.exec ctx .fromAltStack (.top st (x :: alt)) = some (.top (x :: st) alt) := rfl

theorem exec_roll {k : ℕ} (hk : k < 2 ^ 31) (habove : above.length = k) (x : Bytes)
    (st alt : List Bytes) :
    Op.exec ctx .roll (.top (scriptInt k :: (above ++ x :: st)) alt) =
      some (.top (x :: (above ++ st)) alt) := by
  have hget : (above ++ x :: st)[k]? = some x := by simp [← habove]
  have herase : (above ++ x :: st).eraseIdx k = above ++ st := by
    rw [eraseIdx_append_of_length_le habove.le, habove, Nat.sub_self, eraseIdx_cons_zero]
  simp [Op.exec, Op.execActive, readScriptInt_four hk, hget, herase]

theorem run_toAltStack (hn : xs.length = n) (st alt : List Bytes) :
    run (Op.exec ctx) (.replicate n .toAltStack) (.top (xs ++ st) alt) =
      some (.top st (xs.reverse ++ alt)) := by
  subst hn
  induction xs generalizing alt with
  | nil => rfl
  | cons x xs ih =>
    rw [length_cons, replicate_succ, run_cons, cons_append, exec_toAltStack,
      Option.bind_some, ih, reverse_cons, append_assoc, singleton_append]

theorem run_fromAltStack (hn : xs.length = n) (st alt : List Bytes) :
    run (Op.exec ctx) (.replicate n .fromAltStack) (.top st (xs ++ alt)) =
      some (.top (xs.reverse ++ st) alt) := by
  subst hn
  induction xs generalizing st with
  | nil => rfl
  | cons x xs ih =>
    rw [length_cons, replicate_succ, run_cons, cons_append, exec_fromAltStack,
      Option.bind_some, ih, reverse_cons, append_assoc, singleton_append]

/-- `{ depth } OP_ROLL OP_TOALTSTACK`: move the item below `depth` others. -/
def rollToAlt (depth : ℕ) : List Op := [.int depth, .roll, .toAltStack]

theorem run_rollToAlt_one {k : ℕ} (hk : k < 2 ^ 31) (habove : above.length = k)
    (x : Bytes) (st alt : List Bytes) :
    run (Op.exec ctx) (rollToAlt k) (.top (above ++ x :: st) alt) =
      some (.top (above ++ st) (x :: alt)) := by
  rw [rollToAlt, run_cons, exec_int, Option.bind_some, run_cons, exec_roll ctx hk habove,
    Option.bind_some, run_cons, exec_toAltStack, Option.bind_some, run_nil]

theorem run_rollToAlt {depth : ℕ} (hdepth : above.length = depth) (hn : xs.length = n)
    (hlt : depth < 2 ^ 31) (st alt : List Bytes) :
    run (Op.exec ctx) (replicate n (rollToAlt depth)).flatten (.top (above ++ (xs ++ st)) alt) =
      some (.top (above ++ st) (xs.reverse ++ alt)) := by
  subst hn
  induction xs generalizing alt with
  | nil => rfl
  | cons x xs ih =>
    rw [length_cons, replicate_succ, flatten_cons, cons_append,
      run_append_of (run_rollToAlt_one ctx hlt hdepth x (xs ++ st) alt), ih, reverse_cons,
      append_assoc, singleton_append]

/-- The loop over `n, …, 1` that moves the items below the top to the alternative stack, from the
lowest on. -/
def unstack (n : ℕ) : List Op := (range' 1 n).reverse.flatMap rollToAlt

theorem unstack_succ (n : ℕ) : unstack (n + 1) = rollToAlt (n + 1) ++ unstack n := by
  rw [unstack, range'_1_concat, reverse_append, reverse_singleton,
    singleton_append, flatMap_cons, Nat.add_comm 1 n, unstack]

/-- The items below the top go to the alternative stack in their order. -/
theorem run_unstack (hn : xs.length = n) (hlt : n < 2 ^ 31) (x : Bytes) (st alt : List Bytes) :
    run (Op.exec ctx) (unstack n) (.top (x :: (xs ++ st)) alt) =
      some (.top (x :: st) (xs ++ alt)) := by
  subst hn
  induction xs using reverseRecOn generalizing st alt with
  | nil => rfl
  | append_singleton xs y ih =>
    have hlen : (x :: xs).length < 2 ^ 31 := by simpa using hlt
    rw [length_append, length_singleton, unstack_succ]
    have hone := run_rollToAlt_one ctx hlen rfl y st alt
    simp only [length_cons, cons_append] at hone
    rw [append_assoc, singleton_append, run_append_of hone,
      ih st (y :: alt) ((Nat.lt_succ_self _).trans hlen), append_assoc, singleton_append]

/-- The items below the first come up in reverse order. -/
theorem run_reverse (hn : xs.length = n) (hlt : n < 2 ^ 31) (x : Bytes) (st alt : List Bytes) :
    run (Op.exec ctx) (unstack n ++ .replicate n .fromAltStack) (.top (x :: (xs ++ st)) alt) =
      some (.top (xs.reverse ++ x :: st) alt) := by
  rw [run_append_of (run_unstack ctx hn hlt x st alt), run_fromAltStack ctx hn]

theorem run_pushes (items : List Bytes) (st alt : List Bytes) :
    run (Op.exec ctx) (items.map .push) (.top st alt) = some (.top (items.reverse ++ st) alt) := by
  induction items generalizing st with
  | nil => rfl
  | cons item items ih =>
    rw [map_cons, run_cons, exec_push, Option.bind_some, ih, reverse_cons,
      append_assoc, singleton_append]

theorem run_ints (ds : List ℤ) (st alt : List Bytes) :
    run (Op.exec ctx) (ds.map .int) (.top st alt) =
      some (.top ((ds.map scriptInt).reverse ++ st) alt) := by
  have hpush : ds.map Op.int = (ds.map scriptInt).map .push := by
    rw [map_map]
    rfl
  rw [hpush, run_pushes]

end Loops

end StrataBridge.Script
