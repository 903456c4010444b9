import StrataBridge.DutyTracker.Requests
import StrataBridge.DutyTracker.Setup

/-!
# Which duties an event leads to

Every kind of event leads to its own kinds of duties: nonces are asked for after announcements,
partial signatures after nonces, payments after assignments, and so on. So a statement about
the duties of one kind is a statement about one handler.
-/

namespace StrataBridge

open Rust

variable {sm' : ContractSM} {ds : List OperatorDuty} {d : OperatorDuty} {i : Input}

/-- The kinds of duties that an event can lead to. -/
def ContractEvent.MayEmit : ContractEvent → OperatorDuty → Prop
  | .depositSetup .., .publishGraphNonces .. => True
  | .graphNonces .., .publishGraphSignatures .. => True
  | .graphSigs .., .publishRootNonce .. => True
  | .aggregatedSigs _, .publishRootNonce .. => True
  | .rootNonce .., .publishRootSignature .. => True
  | .rootSig .., .publishDeposit .. => True
  | .assignment .., .fulfillerDuty (.handleFulfillment ..) => True
  | .pegOutGraphConfirmation .., .fulfillerDuty (.publishClaim ..) => True
  | .pegOutGraphConfirmation .., .fulfillerDuty (.publishAssertData ..) => True
  | .pegOutGraphConfirmation .., .fulfillerDuty (.publishPostAssertData ..) => True
  | .pegOutGraphConfirmation .., .verifierDuty .verifyClaim => True
  | .pegOutGraphConfirmation .., .verifierDuty .verifyAssertion => True
  | .block _, .abort => True
  | .block _, .fulfillerDuty (.publishPayoutOptimistic ..) => True
  | .block _, .fulfillerDuty (.publishPreAssert ..) => True
  | .block _, .fulfillerDuty (.publishPayout ..) => True
  | .claimFailure, .verifierDuty .publishChallenge => True
  | .assertionFailure, .verifierDuty .publishDisprove => True
  | _, _ => False

namespace Requested

variable {env : Env} {cfg : ContractCfg} {r : Requested} {pog : PogCache}

/-- In the requested phase, every duty answers an event of its kind. -/
theorem process_emits {ev : ContractEvent} {o : Requested.Reply}
    (ho : r.process env cfg pog ev = some o) : o.Emits ev.MayEmit := by
  cases reaction ho with
  | generates =>
    intro d hd
    obtain ⟨e, _, rfl⟩ := List.mem_map.mp hd
    trivial
  | lastNonces _ _ _ _ hduties =>
    intro d hd
    obtain ⟨_, _, _, _, _, _, rfl⟩ := mem_signatureDuties (congrArg Prod.fst hduties) d hd
    trivial
  | lastPartials | aggregated | lastRootNonce | lastRootPartial =>
    intro d hd
    obtain rfl := List.mem_singleton.mp hd
    trivial
  | rejects | noncesFail | partialsPanic | rootPanics => trivial
  | _ => exact fun d hd => absurd hd List.not_mem_nil

/-- The requested phase asks for no work on a withdrawal. -/
theorem process_emits_signing {ev : ContractEvent} {o : Requested.Reply}
    (ho : r.process env cfg pog ev = some o) :
    o.Emits fun d => (∀ duty, d ≠ .fulfillerDuty duty) ∧ ∀ duty, d ≠ .verifierDuty duty := by
  refine (process_emits ho).mono fun d hd => ⟨?_, ?_⟩
  · rintro duty rfl
    cases ev <;> first | cases hd | cases ho
  · rintro duty rfl
    cases ev <;> first | cases hd | cases ho

end Requested

namespace ContractSM

variable {env : Env} {sm : ContractSM}

/-- **Every duty answers an event of its kind.** -/
theorem processContractEvent_emits (env : Env) (sm : ContractSM) (ev : ContractEvent) :
    (sm.processContractEvent env ev).Emits ev.MayEmit := by
  refine sm.of_reaction env fun o ho => ?_
  cases ho with
  | requested hs ho => exact Outcome.emits_embed.mpr (Requested.process_emits ho)
  | fulfills | claims | postAsserts =>
    split <;> simp [ContractEvent.MayEmit]
  | preAsserts _ _ hds =>
    rcases hds with rfl | ⟨-, scripts, rfl⟩ <;> simp [ContractEvent.MayEmit]
  | collectsLast _ _ _ hds =>
    rcases hds with ⟨-, rfl⟩ | ⟨-, sigs, -, rfl⟩ <;> simp [ContractEvent.MayEmit]
  | _ => simp [fulfillmentDuty, ContractEvent.MayEmit]

/-! ### Requests -/

/-- The kinds of duties that an input can lead to. -/
def Input.MayEmit : Input → OperatorDuty → Prop
  | .event ev, d => ev.MayEmit d
  | .graphNoncesRequest _, .publishGraphNonces .. => True
  | .rootNoncesRequest _, .publishRootNonce .. => True
  | .graphSignaturesRequest _, .publishGraphSignatures .. => True
  | .rootSignaturesRequest _, .publishRootSignature .. => True
  | _, _ => False

private theorem answer_emits {duty : MayPanic (Option OperatorDuty)} {P : OperatorDuty → Prop}
    (h : sm.answer duty = some (sm', ds)) (hduty : ∀ d, duty = .ok (some d) → P d) :
    sm' = sm ∧ ∀ d ∈ ds, P d := by
  cases duty with
  | error msg => cases h
  | ok duty =>
    cases h
    refine ⟨rfl, fun d hd => hduty d ?_⟩
    rw [Option.mem_toList] at hd
    rw [hd]

/-- **A request changes nothing, and its answer is of its kind.** -/
theorem serve_request (h : sm.serve env i = some (sm', ds)) (hi : ∀ ev, i ≠ .event ev) :
    sm' = sm ∧ ∀ d ∈ ds, i.MayEmit d := by
  cases i with
  | event ev => exact absurd rfl (hi ev)
  | _ =>
    rw [serve] at h
    refine answer_emits h fun d hd => ?_
    -- each handler looks the data up, and its last branch makes the duty
    simp only [processGraphNoncesRequest, processRootNoncesRequest, processGraphSignaturesRequest,
      processRootSignaturesRequest] at hd
    repeat' split at hd
    all_goals cases hd <;> trivial

/-- No input changes the configuration of a contract. -/
theorem serve_cfg (h : sm.serve env i = some (sm', ds)) : sm'.cfg = sm.cfg := by
  cases i with
  | event ev => exact cfg_of_step h
  | _ => rw [(serve_request h (by simp)).1]

/-- **Every duty answers an input of its kind.** -/
theorem serve_emits (h : sm.serve env i = some (sm', ds)) : ∀ d ∈ ds, i.MayEmit d := by
  cases i with
  | event ev => exact (processContractEvent_emits env sm ev).of_next h
  | _ => exact (serve_request h (by simp)).2

end ContractSM

end StrataBridge
