import StrataBridge.Primitives.Params
import StrataBridge.Rust.Outcome

/-!
# Secret nonces and their cache

The signer of the secret service derives the secret nonce of a session from its keys and from the
parameters of the session. A cache, shared by all signers of the process, keeps the last nonces
under a hash of the parameters alone. As long as the sessions with the same parameters belong to
one signer, the cache is not seen in any answer; a second signer is given the nonce of the first.

Key aggregation, nonces and signing are those of the MuSig2 library, as parameters. Which entries
the advisor of the cache evicts is left open.

## References

* `bin/secret-service/src/seeded_impl/musig2.rs`, `crates/secret-service-proto/src/v2/traits.rs`
-/

namespace StrataBridge.SecretService

open Rust

structure Keypair where
  code : ℕ
  deriving DecidableEq, Repr

structure SecNonce where
  code : ℕ
  deriving DecidableEq, Repr

/-- `Musig2Params` (`traits.rs`, lines 234–239). -/
structure Musig2Params where
  orderedPubkeys : List XOnlyPublicKey
  witness : TaprootWitness
  input : OutPoint
  deriving DecidableEq, Repr

inductive SigningError
  | unknownKey
  | selfVerifyFail
  deriving DecidableEq, Repr

inductive SignerErr
  | ourPubKeyIsNotInParams
  | selfVerifyFailed
  deriving DecidableEq, Repr

/-- What the signer uses of the libraries: key aggregation with its two tweaks, the expansion of
the key material for an outpoint, nonces and partial signatures. -/
structure Musig2Lib where
  keyAgg : List XOnlyPublicKey → MayPanic KeyAggContext
  withUnspendableTaprootTweak : KeyAggContext → MayPanic KeyAggContext
  withTaprootTweak : KeyAggContext → BitVec 256 → MayPanic KeyAggContext
  xOnlyPublicKey : Keypair → XOnlyPublicKey
  expand : BitVec 256 → OutPoint → BitVec 256
  buildSecNonce : BitVec 256 → Keypair → KeyAggContext → ℕ → SecNonce
  publicNonce : SecNonce → PubNonce
  signPartial : KeyAggContext → Keypair → SecNonce → AggNonce → BitVec 256 →
    Except SigningError PartialSignature

/-- `Ms2Signer` (`musig2.rs`, lines 36–42). -/
structure Ms2Signer where
  kp : Keypair
  ikm : BitVec 256
  deriving DecidableEq, Repr

abbrev SecNonceCache : Type := UInt64 → Option SecNonce

/-- `SecNonceCache::get` (`musig2.rs`, lines 76–98). Before a new nonce is put in, the entries that
the advisor names are taken out. -/
def SecNonceCache.get (cache : SecNonceCache) (hash : UInt64) (evicted : List UInt64)
    (create : Except SignerErr SecNonce) : SecNonceCache × Except SignerErr SecNonce :=
  match cache hash with
  | some nonce => (cache, .ok nonce)
  | none =>
    match create with
    | .error e => (cache, .error e)
    | .ok nonce =>
      (fun h => if h = hash then some nonce else if h ∈ evicted then none else cache h, .ok nonce)

section Signer

variable (lib : Musig2Lib)

/-- `Ms2Signer::key_agg_ctx` (`musig2.rs`, lines 121–143). -/
def keyAggCtx (params : Musig2Params) : MayPanic KeyAggContext := do
  let ctx ← lib.keyAgg params.orderedPubkeys
  match params.witness with
  | .key => lib.withUnspendableTaprootTweak ctx
  | .tweaked tweak => lib.withTaprootTweak ctx tweak
  | .script _ _ => .ok ctx

/-- The nonce that `Ms2Signer::sec_nonce` creates (`musig2.rs`, lines 150–174). -/
def Ms2Signer.createNonce (s : Ms2Signer) (params : Musig2Params) (ctx : KeyAggContext) :
    Except SignerErr SecNonce :=
  match params.orderedPubkeys.findIdx? (· = lib.xOnlyPublicKey s.kp) with
  | none => .error .ourPubKeyIsNotInParams
  | some idx => .ok (lib.buildSecNonce (lib.expand s.ikm params.input) s.kp ctx idx)

inductive Request
  | getPubNonce
  | getOurPartialSig (aggnonce : AggNonce) (message : BitVec 256)
  deriving DecidableEq

inductive Answer
  | pubNonce (nonce : PubNonce)
  | partialSig (sig : PartialSignature)
  deriving DecidableEq, Repr

/-- The end of `get_pub_nonce` and of `get_our_partial_sig` (`musig2.rs`, lines 184–216). -/
def Ms2Signer.answer (s : Ms2Signer) (ctx : KeyAggContext) (nonce : SecNonce) :
    Request → MayPanic (Except SignerErr Answer)
  | .getPubNonce => .ok (.ok (.pubNonce (lib.publicNonce nonce)))
  | .getOurPartialSig aggnonce message =>
    match lib.signPartial ctx s.kp nonce aggnonce message with
    | .ok sig => .ok (.ok (.partialSig sig))
    | .error .unknownKey => .error "we checked if our key is included when building secnonce"
    | .error .selfVerifyFail => .ok (.error .selfVerifyFailed)

/-- A call of a signer, with the entries that the cache gives up if it takes a new nonce. -/
structure Call where
  signer : Ms2Signer
  params : Musig2Params
  request : Request
  evicted : List UInt64

variable (hashOne : Musig2Params → UInt64)

/-- A call on the cache. The cache is locked while the nonce is looked up, and not before or
after. -/
def Call.run (cache : SecNonceCache) (c : Call) :
    SecNonceCache × MayPanic (Except SignerErr Answer) :=
  match keyAggCtx lib c.params with
  | .error e => (cache, .error e)
  | .ok ctx =>
    let (cache, nonce) := cache.get (hashOne c.params) c.evicted
      (c.signer.createNonce lib c.params ctx)
    match nonce with
    | .error e => (cache, .ok (.error e))
    | .ok nonce => (cache, c.signer.answer lib ctx nonce c.request)

/-- The answers to the calls of a process, in the order in which they lock the cache. -/
def answers (cache : SecNonceCache) : List Call → List (MayPanic (Except SignerErr Answer))
  | [] => []
  | c :: calls => (c.run lib hashOne cache).2 :: answers (c.run lib hashOne cache).1 calls

def Call.fresh (c : Call) : MayPanic (Except SignerErr Answer) :=
  (c.run lib hashOne fun _ => none).2

/-! ### Transparency -/

def SecNonceCache.Created (calls : List Call) (cache : SecNonceCache) : Prop :=
  ∀ hash nonce, cache hash = some nonce → ∃ c ∈ calls, hashOne c.params = hash ∧
    ∃ ctx, keyAggCtx lib c.params = .ok ctx ∧ c.signer.createNonce lib c.params ctx = .ok nonce

variable {lib hashOne} {cache : SecNonceCache} {c : Call} {calls : List Call}

theorem Call.run_created (h : cache.Created lib hashOne calls) (hc : c ∈ calls) :
    (c.run lib hashOne cache).1.Created lib hashOne calls := by
  rw [run]
  split
  next => exact h
  next ctx hctx =>
    cases hcached : cache (hashOne c.params) with
    | some nonce =>
      simp only [SecNonceCache.get, hcached]
      exact h
    | none =>
      cases hcreate : c.signer.createNonce lib c.params ctx with
      | error e =>
        simp only [SecNonceCache.get, hcached]
        exact h
      | ok nonce =>
        simp only [SecNonceCache.get, hcached]
        intro hash nonce' hget
        dsimp only at hget
        split at hget
        next heq =>
          cases hget
          exact ⟨c, hc, heq.symm, ctx, hctx, hcreate⟩
        next =>
          split at hget
          next => cases hget
          next => exact h hash nonce' hget

theorem Call.run_eq_fresh (h : cache.Created lib hashOne calls)
    (hsame : ∀ c' ∈ calls, hashOne c'.params = hashOne c.params →
      c'.params = c.params ∧ c'.signer = c.signer) :
    (c.run lib hashOne cache).2 = c.fresh lib hashOne := by
  rw [fresh, run, run]
  split
  next => rfl
  next ctx hctx =>
    cases hcached : cache (hashOne c.params) with
    | none => cases hcreate : c.signer.createNonce lib c.params ctx <;>
        simp only [SecNonceCache.get, hcached]
    | some nonce =>
      obtain ⟨c', hc', hhash, ctx', hctx', hnonce⟩ := h _ _ hcached
      obtain ⟨hparams, hsigner⟩ := hsame c' hc' hhash
      rw [hparams] at hctx' hnonce
      obtain rfl := Except.ok.inj (hctx.symm.trans hctx')
      rw [hsigner] at hnonce
      simp only [SecNonceCache.get, hcached, hnonce]

theorem answers_eq_fresh (all : List Call) (hsub : ∀ c ∈ calls, c ∈ all)
    (h : cache.Created lib hashOne all)
    (hsame : ∀ c ∈ all, ∀ c' ∈ all, hashOne c'.params = hashOne c.params →
      c'.params = c.params ∧ c'.signer = c.signer) :
    answers lib hashOne cache calls = calls.map (Call.fresh lib hashOne) := by
  induction calls generalizing cache with
  | nil => rfl
  | cons c calls ih =>
    have hc := hsub c List.mem_cons_self
    rw [answers, List.map_cons, Call.run_eq_fresh h (hsame c hc),
      ih (fun c hc => hsub c (List.mem_cons_of_mem _ hc)) (Call.run_created h hc)]

/-- On an empty cache a public nonce and a signature of one session rest on one secret nonce. -/
theorem Call.fresh_sig_of_pubNonce {c' : Call} {pubNonce : PubNonce} {aggnonce : AggNonce}
    {message : BitVec 256} (hc : c.request = .getPubNonce)
    (hc' : c'.request = .getOurPartialSig aggnonce message) (hsigner : c'.signer = c.signer)
    (hparams : c'.params = c.params) (h : c.fresh lib hashOne = .ok (.ok (.pubNonce pubNonce))) :
    ∃ ctx nonce, lib.publicNonce nonce = pubNonce ∧
      c'.fresh lib hashOne =
        c.signer.answer lib ctx nonce (.getOurPartialSig aggnonce message) := by
  rw [fresh, run] at h ⊢
  rw [hparams]
  split at h
  next => cases h
  next ctx hctx =>
    rw [hsigner]
    cases hcreate : c.signer.createNonce lib c.params ctx with
    | error e => simp [SecNonceCache.get, hcreate] at h
    | ok nonce =>
      simp only [hcreate, hc] at h
      refine ⟨ctx, nonce, ?_, ?_⟩
      · injection h with h; injection h with h; injection h
      · simp only [SecNonceCache.get, hc']

/-- **The cache of secret nonces is transparent to one signer.** Let the hashes of the parameters
in use be distinct, and let calls with the same parameters come from the same signer. Then every
call is answered as on an empty cache, and a signature is made with the secret of the public nonce
that the signer gave out for the same parameters. -/
theorem nonceCache_transparent
    (hhash : ∀ c ∈ calls, ∀ c' ∈ calls, hashOne c'.params = hashOne c.params → c'.params = c.params)
    (hsigner : ∀ c ∈ calls, ∀ c' ∈ calls, c'.params = c.params → c'.signer = c.signer) :
    answers lib hashOne (fun _ => none) calls = calls.map (Call.fresh lib hashOne) ∧
    ∀ c ∈ calls, ∀ c' ∈ calls, ∀ pubNonce aggnonce message, c.request = .getPubNonce →
      c'.request = .getOurPartialSig aggnonce message → c'.params = c.params →
      c.fresh lib hashOne = .ok (.ok (.pubNonce pubNonce)) →
      ∃ ctx nonce, lib.publicNonce nonce = pubNonce ∧ c'.fresh lib hashOne =
        c.signer.answer lib ctx nonce (.getOurPartialSig aggnonce message) := by
  refine ⟨answers_eq_fresh calls (fun _ hc => hc) nofun fun c hc c' hc' heq => ?_,
    fun c hc c' hc' _ _ _ hpub hsig hparams hfresh => ?_⟩
  · have hparams := hhash c hc c' hc' heq
    exact ⟨hparams, hsigner c hc c' hc' hparams⟩
  · exact Call.fresh_sig_of_pubNonce hpub hsig (hsigner c hc c' hc' hparams) hparams hfresh

end Signer

/-! ### Two signers -/

namespace Linear

/-- A library in which nothing fails and the nonces show the key they were made with. -/
def musig2Lib : Musig2Lib where
  keyAgg _ := .ok ⟨0⟩
  withUnspendableTaprootTweak ctx := .ok ctx
  withTaprootTweak ctx _ := .ok ctx
  xOnlyPublicKey kp := ⟨kp.code⟩
  expand ikm _ := ikm
  buildSecNonce _ kp _ _ := ⟨kp.code⟩
  publicNonce nonce := ⟨nonce.code⟩
  signPartial _ kp nonce _ _ := .ok ⟨kp.code + nonce.code⟩

def sessionCall (code : ℕ) (request : Request) : Call :=
  ⟨⟨⟨code⟩, 0⟩, ⟨[⟨1⟩], .key, ⟨⟨0⟩, 0⟩⟩, request, []⟩

end Linear

/-- A signature after a public nonce is made with the nonce in the cache. -/
theorem nonceCache_transparent_one :
    answers Linear.musig2Lib (fun _ => 0) (fun _ => none)
        [Linear.sessionCall 1 .getPubNonce, Linear.sessionCall 1 (.getOurPartialSig (.sum []) 0)] =
      [.ok (.ok (.pubNonce ⟨1⟩)), .ok (.ok (.partialSig ⟨2⟩))] :=
  (nonceCache_transparent (by decide) (by decide)).1.trans rfl

/-- **A second signer is given the nonce of the first**, also when it is none of the signers of the
session. -/
theorem nonceCache_shared :
    answers Linear.musig2Lib (fun _ => 0) (fun _ => none)
        [Linear.sessionCall 1 .getPubNonce, Linear.sessionCall 2 .getPubNonce] =
      [.ok (.ok (.pubNonce ⟨1⟩)), .ok (.ok (.pubNonce ⟨1⟩))] ∧
    (Linear.sessionCall 2 .getPubNonce).fresh Linear.musig2Lib (fun _ => 0) =
      .ok (.error .ourPubKeyIsNotInParams) :=
  ⟨rfl, rfl⟩

end StrataBridge.SecretService
