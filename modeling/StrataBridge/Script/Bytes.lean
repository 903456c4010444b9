import Mathlib.Tactic.IntervalCases
import StrataBridge.Bitcoin.BigEndian
import StrataBridge.Primitives.Scripts
import StrataBridge.Script.Machine

/-!
# Scripts as bytes

An output holds a script as a byte string. It is compiled opcode by opcode, and read again one
instruction at a time when the output is spent.
-/

namespace StrataBridge.Script

open List

/-! ### Data -/

theorem leValue_reverse (b : Bytes) : leValue b.reverse = ofBeBytes b := by
  induction b with
  | nil => rfl
  | cons x b ih =>
    rw [reverse_cons, leValue_append, ih, length_reverse, ofBeBytes, leValue, leValue]
    ring

private theorem foldr_eq_leValue (b : Bytes) :
    b.foldr (fun b n => b.toNat + 256 * n) 0 = leValue b := by
  induction b with
  | nil => rfl
  | cons x b ih => rw [foldr_cons, ih, leValue]

theorem takePush_append (data rest : Bytes) :
    takePush data.length (data ++ rest) = some (.pushBytes data, rest) := by
  rw [takePush, if_neg (by simp), take_left, drop_left]

theorem takePushData_append {w : ℕ} (data rest : Bytes) (h : data.length < 256 ^ w) :
    takePushData w ((toBeBytes w data.length).reverse ++ (data ++ rest)) =
      some (.pushBytes data, rest) := by
  have hw : ((toBeBytes w data.length).reverse).length = w := by simp
  rw [takePushData, if_neg (by simp), take_left' hw, drop_left' hw, foldr_eq_leValue,
    leValue_reverse, ofBeBytes_toBeBytes, Nat.mod_eq_of_lt h, takePush_append]

/-- **Data of any length is read back**, with what follows it. -/
theorem next_pushSlice (data rest : Bytes) (h : data.length < 2 ^ 32) :
    next (pushSlice data ++ rest) = some (.pushBytes data, rest) := by
  rw [pushSlice]
  split_ifs with h1 h2 h3
  · have hn : (UInt8.ofNat data.length).toNat = data.length := by
      rw [UInt8.toNat_ofNat', Nat.mod_eq_of_lt (by omega)]
    rw [append_assoc, singleton_append, next, hn, if_pos h1, takePush_append]
  · have hone : [UInt8.ofNat data.length] = (toBeBytes 1 data.length).reverse := by
      simp [toBeBytes]
    have hdata := takePushData_append data rest (w := 1) (by simpa using h2)
    rw [← hone] at hdata
    exact hdata
  · have hlt : data.length < 256 ^ 2 := by simpa using h3
    rw [append_assoc, cons_append, next, if_neg (by decide), if_neg (by decide),
      if_pos rfl, takePushData_append data rest hlt]
  · have hlt : data.length < 256 ^ 4 := by simpa using h
    rw [append_assoc, cons_append, next, if_neg (by decide), if_neg (by decide),
      if_neg (by decide), if_pos rfl, takePushData_append data rest hlt]

/-! ### Opcodes -/

def pushData (data : Bytes) : Bytes :=
  match data with
  | [] => [0x00]
  | [x] =>
    if 1 ≤ x.toNat ∧ x.toNat ≤ 16 then [0x50 + x] else if x = 0x81 then [0x4f] else pushSlice [x]
  | data => pushSlice data

namespace Op

def bytes : Op → Bytes
  | .push data => pushData data
  | .ifTrue => [0x63]
  | .otherwise => [0x67]
  | .endIf => [0x68]
  | .toAltStack => [0x6b]
  | .fromAltStack => [0x6c]
  | .twoDup => [0x6e]
  | .drop => [0x75]
  | .roll => [0x7a]
  | .size => [0x82]
  | .equal => [0x87]
  | .equalVerify => [0x88]
  | .not => [0x91]
  | .add => [0x93]
  | .sub => [0x94]
  | .boolAnd => [0x9a]
  | .greaterThan => [0xa0]
  | .sha256 => [0xa8]
  | .checkSig => [0xac]
  | .checkSigVerify => [0xad]
  | .checkSequenceVerify => [0xb2]

/-- The opcode of an instruction; small numbers have opcodes of their own. -/
def ofInstruction : Instruction → Option Op
  | .pushBytes data => some (.push data)
  | .op code =>
    match code.toNat with
    | 0x4f => some (.push [0x81])
    | 0x63 => some .ifTrue
    | 0x67 => some .otherwise
    | 0x68 => some .endIf
    | 0x6b => some .toAltStack
    | 0x6c => some .fromAltStack
    | 0x6e => some .twoDup
    | 0x75 => some .drop
    | 0x7a => some .roll
    | 0x82 => some .size
    | 0x87 => some .equal
    | 0x88 => some .equalVerify
    | 0x91 => some .not
    | 0x93 => some .add
    | 0x94 => some .sub
    | 0x9a => some .boolAnd
    | 0xa0 => some .greaterThan
    | 0xa8 => some .sha256
    | 0xac => some .checkSig
    | 0xad => some .checkSigVerify
    | 0xb2 => some .checkSequenceVerify
    | _ => if 0x51 ≤ code.toNat ∧ code.toNat ≤ 0x60 then some (.push [code - 0x50]) else none

def Writable : Op → Prop
  | .push data => data.length < 2 ^ 32
  | _ => True

end Op

theorem writable_int (n : ℤ) : (Op.int n).Writable :=
  (length_scriptInt_le n).trans_lt (by decide)

def compile (script : List Op) : ScriptBuf := script.flatMap Op.bytes

def parseFuel : ℕ → ScriptBuf → Option (List Op)
  | _, [] => some []
  | 0, _ :: _ => none
  | fuel + 1, b :: bs =>
    (next (b :: bs)).bind fun (instruction, rest) =>
      (Op.ofInstruction instruction).bind fun op => (parseFuel fuel rest).map (op :: ·)

def parse (script : ScriptBuf) : Option (List Op) := parseFuel script.length script

private theorem next_small : ∀ x : UInt8, 1 ≤ x.toNat ∧ x.toNat ≤ 16 →
    ∀ rest, next ((0x50 + x) :: rest) = some (.op (0x50 + x), rest) := by
  intro x hx rest
  have hnat : (0x50 + x).toNat = 0x50 + x.toNat := by
    rw [UInt8.toNat_add]
    exact Nat.mod_eq_of_lt (by have : (0x50 : UInt8).toNat = 0x50 := rfl; omega)
  have hne : ∀ c : UInt8, c.toNat < 0x50 → 0x50 + x ≠ c := fun c hc h => by
    rw [← h] at hc
    omega
  rw [next, if_neg (by omega), if_neg (hne 0x4c (by decide)), if_neg (hne 0x4d (by decide)),
    if_neg (hne 0x4e (by decide))]

private theorem ofInstruction_small (x : UInt8) (hx : 1 ≤ x.toNat ∧ x.toNat ≤ 16) :
    Op.ofInstruction (.op (0x50 + x)) = some (.push [x]) := by
  obtain ⟨h1, h16⟩ := hx
  obtain ⟨n, rfl⟩ : ∃ n : ℕ, x = UInt8.ofNat n := ⟨x.toNat, (UInt8.ofNat_toNat).symm⟩
  have hn : (UInt8.ofNat n).toNat = n % 256 := UInt8.toNat_ofNat'
  rw [hn] at h1 h16
  have hmod : UInt8.ofNat n = UInt8.ofNat (n % 256) :=
    UInt8.toNat_inj.mp (by rw [UInt8.toNat_ofNat', UInt8.toNat_ofNat', Nat.mod_mod])
  rw [hmod]
  generalize n % 256 = k at h1 h16
  interval_cases k <;> rfl

/-- **An opcode is read back**, with what follows it. -/
theorem next_bytes {op : Op} (h : op.Writable) (rest : Bytes) :
    ∃ instruction, next (op.bytes ++ rest) = some (instruction, rest) ∧
      Op.ofInstruction instruction = some op := by
  cases op with
  | push data =>
    match data with
    | [] => exact ⟨_, rfl, rfl⟩
    | [x] =>
      rw [Op.bytes, pushData]
      split_ifs with hsmall hneg
      · exact ⟨_, next_small x hsmall rest, ofInstruction_small x hsmall⟩
      · exact ⟨_, rfl, by rw [hneg]; rfl⟩
      · exact ⟨_, next_pushSlice _ _ h, rfl⟩
    | x :: y :: data => exact ⟨_, next_pushSlice _ _ h, rfl⟩
  | _ => exact ⟨_, rfl, rfl⟩

private theorem pushData_ne_nil (data : Bytes) : pushData data ≠ [] := by
  have hslice : ∀ data, pushSlice data ≠ [] := fun data => by
    rw [pushSlice]
    split_ifs <;> simp
  unfold pushData
  split
  · simp
  · split_ifs <;> first | exact hslice _ | simp
  · exact hslice _

private theorem bytes_ne_nil (op : Op) : op.bytes ≠ [] := by
  cases op with
  | push data => exact pushData_ne_nil data
  | _ => exact cons_ne_nil _ _

/-- **A compiled script is read back.** -/
theorem parse_compile {script : List Op} (h : ∀ op ∈ script, op.Writable) :
    parse (compile script) = some script := by
  suffices hfuel : ∀ fuel, (compile script).length ≤ fuel →
      parseFuel fuel (compile script) = some script from hfuel _ le_rfl
  induction script with
  | nil =>
    intro fuel _
    cases fuel <;> rfl
  | cons op script ih =>
    intro fuel hfuel
    have hcompile : compile (op :: script) = op.bytes ++ compile script := rfl
    obtain ⟨instruction, hnext, hop⟩ := next_bytes (h op mem_cons_self) (compile script)
    obtain ⟨b, bs, hbytes⟩ := exists_cons_of_ne_nil (bytes_ne_nil op)
    rw [hcompile, hbytes, cons_append] at hfuel ⊢
    rw [hbytes, cons_append] at hnext
    obtain _ | fuel := fuel
    · simp at hfuel
    · have hle : (compile script).length ≤ fuel := by
        simp only [length_cons, length_append] at hfuel
        omega
      have hrest := ih (fun o ho => h o (mem_cons_of_mem op ho)) fuel hle
      simp [parseFuel, hnext, hop, hrest]

/-- The witness of an input, its top first, satisfies a script: the script runs to its end, no
branch is left open, and one item remains, which is true. -/
def Accepts (ctx : Spending) (script : ScriptBuf) (witness : List Bytes) : Prop :=
  ∃ ops result alt, parse script = some ops ∧
    run (Op.exec ctx) ops (.top witness []) = some (.top [result] alt) ∧ castToBool result = true

theorem accepts_compile {ctx : Spending} {script : List Op} (h : ∀ op ∈ script, op.Writable)
    (witness : List Bytes) :
    Accepts ctx (compile script) witness ↔ ∃ result alt,
      run (Op.exec ctx) script (.top witness []) = some (.top [result] alt) ∧
        castToBool result = true := by
  simp [Accepts, parse_compile h]

end StrataBridge.Script
