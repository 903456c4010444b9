import StrataBridge.Rust.Outcome

/-!
# Framing of the secret service

A message to the secret service is its archived body behind two bytes for the length of the body.
The length is cut to 16 bits when it is written, so that only a body below 64 KiB is read back.

## References

* `crates/secret-service-proto/src/wire.rs`, `crates/secret-service-server/src/lib.rs`
-/

namespace StrataBridge.SecretService

open Rust List

/-- The archiving of messages, `rkyv::to_bytes` and `rkyv::from_bytes`. Each undoes the other. -/
structure Codec (M : Type) where
  toBytes : M → Except String (List UInt8)
  fromBytes : List UInt8 → Except String M
  inverse : ∀ m body, toBytes m = .ok body ↔ fromBytes body = .ok m

/-- `LengthUint::to_le_bytes`, two bytes for a number below `2 ^ 16`. -/
def toLeBytes (n : ℕ) : List UInt8 := [.ofNat (n % 256), .ofNat (n / 256)]

/-- `LengthUint::from_le_bytes`. -/
def fromLeBytes (buf : List UInt8) : ℕ := (buf.getD 0 0).toNat + 256 * (buf.getD 1 0).toNat

/-- `ReadExactError::FinishedEarly`, with the number of bytes that were read. -/
inductive ReadExactError
  | finishedEarly (n : ℕ)
  deriving DecidableEq, Repr

/-- `RecvStream::read_exact`, for a buffer of `n` bytes. -/
def readExact (n : ℕ) (rx : List UInt8) : Outcome (List UInt8) ReadExactError (List UInt8) :=
  if n ≤ rx.length then .ok (rx.drop n) (rx.take n) else .err [] (.finishedEarly rx.length)

variable {M : Type} (codec : Codec M)

/-- `WireMessage::serialize` (`wire.rs`, lines 44–48): the length, cast to 16 bits, and the body. -/
def serialize (m : M) : Except String (List UInt8 × List UInt8) :=
  (codec.toBytes m).map fun body => (toLeBytes (body.length % 2 ^ 16), body)

/-- How `request_handler` reads its message (`lib.rs`, lines 155–165). A body that does not decode
is a panic. -/
def readRequest (rx : List UInt8) : Outcome (List UInt8) ReadExactError M :=
  (readExact 2 rx).bind fun rx buf =>
    (readExact (fromLeBytes buf) rx).bind fun rx body =>
      match codec.fromBytes body with
      | .ok m => .ok rx m
      | .error e => .panic e

theorem fromLeBytes_toLeBytes {n : ℕ} (h : n < 2 ^ 16) : fromLeBytes (toLeBytes n) = n := by
  change (UInt8.ofNat (n % 256)).toNat + 256 * (UInt8.ofNat (n / 256)).toNat = n
  rw [UInt8.toNat_ofNat', UInt8.toNat_ofNat']
  omega

variable {codec} {m : M} {len body : List UInt8}

theorem readRequest_serialize (h : serialize codec m = .ok (len, body)) :
    codec.toBytes m = .ok body ∧ readRequest codec (len ++ body) =
      match codec.fromBytes (body.take (body.length % 2 ^ 16)) with
      | .ok m => .ok (body.drop (body.length % 2 ^ 16)) m
      | .error e => .panic e := by
  rw [serialize] at h
  cases hbytes : codec.toBytes m with
  | error e => rw [hbytes] at h; cases h
  | ok bytes =>
    rw [hbytes] at h
    obtain ⟨rfl, rfl⟩ := Prod.mk.inj (Except.ok.inj h)
    refine ⟨rfl, ?_⟩
    have hlen : bytes.length % 2 ^ 16 ≤ bytes.length := Nat.mod_le _ _
    have htwo : readExact 2 (toLeBytes (bytes.length % 2 ^ 16) ++ bytes) =
        .ok bytes (toLeBytes (bytes.length % 2 ^ 16)) := if_pos (by simp [toLeBytes])
    rw [readRequest, htwo, Outcome.bind, fromLeBytes_toLeBytes (Nat.mod_lt _ (by decide)),
      readExact, if_pos hlen]
    rfl

/-- **The server reads a message back exactly when its body is shorter than 64 KiB.** -/
theorem readRequest_serialize_iff (h : serialize codec m = .ok (len, body)) :
    (∃ rx, readRequest codec (len ++ body) = .ok rx m) ↔ body.length < 2 ^ 16 := by
  obtain ⟨hbytes, hread⟩ := readRequest_serialize h
  rw [hread]
  constructor
  · rintro ⟨rx, hok⟩
    have hcut : codec.fromBytes (body.take (body.length % 2 ^ 16)) = .ok m := by
      split at hok
      next m' hm => rw [hm, (Outcome.ok.inj hok).2]
      next => cases hok
    have hsame := Except.ok.inj (hbytes.symm.trans ((codec.inverse _ _).mpr hcut))
    have hlen := congrArg length hsame
    rw [length_take, Nat.min_eq_left (Nat.mod_le _ _)] at hlen
    rw [hlen]
    exact Nat.mod_lt _ (by decide)
  · intro hlt
    rw [Nat.mod_eq_of_lt hlt, take_length, (codec.inverse _ _).mp hbytes]
    exact ⟨_, rfl⟩

def rawCodec : Codec (List UInt8) where
  toBytes := .ok
  fromBytes := .ok
  inverse _ _ := by simp only [Except.ok.injEq, eq_comm]

/-- A message of one byte is read back. -/
theorem readRequest_serialize_one : ∃ rx, readRequest rawCodec ([1, 0] ++ [7]) = .ok rx [7] :=
  (@readRequest_serialize_iff _ rawCodec [7] [1, 0] [7] rfl).mpr (by decide)

/-- **A message of 64 KiB is read as the empty one.** -/
theorem readRequest_cut : ∃ m len body, serialize rawCodec m = .ok (len, body) ∧ m ≠ [] ∧
    ∃ rx, readRequest rawCodec (len ++ body) = .ok rx [] := by
  have hlen : (replicate (2 ^ 16) (0 : UInt8)).length = 2 ^ 16 := length_replicate
  refine ⟨replicate (2 ^ 16) 0, _, _, rfl, fun h => ?_, ?_⟩
  · rw [h] at hlen
    exact absurd hlen (by decide)
  · rw [(readRequest_serialize rfl).2, hlen]
    exact ⟨_, rfl⟩

end StrataBridge.SecretService
