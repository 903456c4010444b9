import StrataBridge.DutyTracker.Recovery

/-!
# Heights and indices after a block

Every deposit has an index, and all operators have to give it the same one. A block finds the
contracts one height below it, with the indices from zero on; the deposit requests that it adds get
the next indices, in the order of the block. A transaction that the manager does not take as a new
request uses up no index: one that assigns withdrawals, one that is no request or for which no
deposit can be built, and one whose deposit has a contract.

A request that is known already should use up no index either. But the deposit that is looked up is
the one with the next index, which is new; so a known request gets a second contract.

## Main definitions

* `ContractManagerCtx.NumbersRequests`: heights and indices as they should be after a block
* `ContractManagerCtx.FirstRequests`: no request of the block is known

## Main results

* `ContractManagerCtx.block_numbers_deposits`: the former holds exactly when the latter does
* `ContractManagerCtx.known_request_numbered`: a known request with an index of its own

## References

* `crates/duty-tracker/src/contract_manager.rs`, lines 594–774
-/

namespace StrataBridge

open Rust Transition Linear BTreeMap List

variable {height : BitcoinBlockHeight} {deposits : List DepositTx} {G : ContractEvent → Prop}
  {es : List Emission}

namespace ContractManagerCtx

variable {env : Env} {ctx ctx' : ContractManagerCtx}

/-! ### Deposit requests -/

/-- Deposits for some of the transactions of a block, in their order, with the indices from the
given one on. -/
inductive Numbers (env : Env) (ctx : ContractManagerCtx) :
    ℕ → List Transaction → List DepositTx → Prop
  | nil (idx : ℕ) : Numbers env ctx idx [] []
  | pass {idx tx txs deposits} (h : Numbers env ctx idx txs deposits) :
      Numbers env ctx idx (tx :: txs) deposits
  | accept {idx tx txs depositTx deposits} (htx : AcceptsRequest env ctx idx tx depositTx)
      (h : Numbers env ctx (idx + 1) txs deposits) :
      Numbers env ctx idx (tx :: txs) (depositTx :: deposits)

theorem requests_afterTx (env : Env) (ctx : ContractManagerCtx) (height : BitcoinBlockHeight)
    (v : BlockView) (tx : Transaction) :
    (ctx.afterTx env height v tx).requests = v.requests ∨
      ∃ depositTx, AcceptsRequest env ctx (ctx.nextIdx v) tx depositTx ∧
        (ctx.afterTx env height v tx).requests = v.requests ++ [depositTx] := by
  rw [afterTx]
  split
  · exact .inl rfl
  rw [afterOther]
  split
  · cases haccepted : ctx.acceptedRequest env v tx with
    | none => exact .inl (append_nil _)
    | some depositTx => exact .inr ⟨depositTx, acceptedRequest_eq_some.mp haccepted, rfl⟩
  · exact .inl rfl

/-- The requests that transactions add are numbered in their order. -/
theorem requests_numbers (env : Env) (ctx : ContractManagerCtx) (height : BitcoinBlockHeight)
    (v : BlockView) (txs : List Transaction) :
    ∃ deposits, (txs.foldl (ctx.afterTx env height) v).requests = v.requests ++ deposits ∧
      Numbers env ctx (ctx.nextIdx v) txs deposits := by
  induction txs generalizing v with
  | nil => exact ⟨[], (append_nil _).symm, .nil _⟩
  | cons tx txs ih =>
    obtain ⟨deposits, hrequests, hnum⟩ := ih (ctx.afterTx env height v tx)
    rw [nextIdx] at hnum
    rcases requests_afterTx env ctx height v tx with hsame | ⟨depositTx, hacc, hadded⟩
    · rw [hsame] at hrequests hnum
      exact ⟨deposits, hrequests, .pass hnum⟩
    · rw [hadded, append_assoc] at hrequests
      rw [hadded, length_append, ← Nat.add_assoc] at hnum
      exact ⟨depositTx :: deposits, hrequests, .accept hacc hnum⟩

theorem newRequests_numbers (env : Env) (ctx : ContractManagerCtx) (b : Block) :
    Numbers env ctx ctx.depositIdxOffset b.txdata (ctx.newRequests env b) := by
  obtain ⟨deposits, hrequests, hnum⟩ :=
    requests_numbers env ctx b.height ⟨ctx.contracts, []⟩ b.txdata
  rw [newRequests, afterTxs, hrequests]
  exact hnum

/-! ### New contracts -/

def newContract (ctx : ContractManagerCtx) (height : BitcoinBlockHeight) (depositIdx : ℕ)
    (depositTx : DepositTx) : ContractSM :=
  .new (ctx.contractCfg depositIdx depositTx) height
    (height + ctx.cfg.pegOutGraphParams.refundDelay)

def newContracts (ctx : ContractManagerCtx) (height : BitcoinBlockHeight) (idx : ℕ)
    (deposits : List DepositTx) : List ContractSM :=
  deposits.mapIdx fun j depositTx => ctx.newContract height (idx + j) depositTx

theorem getElem?_newContracts (ctx : ContractManagerCtx) (height : BitcoinBlockHeight) (idx : ℕ)
    (deposits : List DepositTx) (j : ℕ) : (ctx.newContracts height idx deposits)[j]? =
      deposits[j]?.map (ctx.newContract height (idx + j)) :=
  getElem?_mapIdx

theorem exists_of_mem_newContracts {idx : ℕ} {sm : ContractSM}
    (h : sm ∈ ctx.newContracts height idx deposits) :
    ∃ (j : ℕ) (depositTx : DepositTx), deposits[j]? = some depositTx ∧
      sm = ctx.newContract height (idx + j) depositTx := by
  obtain ⟨j, hj⟩ := getElem?_of_mem h
  rw [getElem?_newContracts] at hj
  obtain ⟨depositTx, hdep, rfl⟩ := Option.map_eq_some_iff.mp hj
  exact ⟨j, depositTx, hdep, rfl⟩

theorem map_depositTxid_newContracts (height : BitcoinBlockHeight) (idx : ℕ)
    (deposits : List DepositTx) :
    ((ctx.newContracts height idx deposits).map fun sm => sm.depositTxid env) =
      deposits.map fun depositTx => depositTx.tx.computeTxid env := by
  refine ext_getElem? fun j => ?_
  rw [getElem?_map, getElem?_newContracts, Option.map_map, getElem?_map]
  rfl

theorem map_depositIdx_newContracts (height : BitcoinBlockHeight) (idx : ℕ)
    (deposits : List DepositTx) :
    ((ctx.newContracts height idx deposits).map fun sm => sm.cfg.depositIdx) =
      range' idx deposits.length := by
  refine ext_getElem? fun j => ?_
  rw [getElem?_map, getElem?_newContracts]
  by_cases hj : j < deposits.length
  · rw [getElem?_eq_getElem hj, getElem?_range' hj, Nat.one_mul]
    rfl
  · rw [getElem?_eq_none (Nat.le_of_not_lt hj), getElem?_eq_none (by simpa using hj)]
    rfl

variable {b : Block} {sms : List ContractSM} {n : ℕ}

theorem newContracts_eq (h : NewContracts env ctx height sms) :
    sms = ctx.newContracts height ctx.depositIdxOffset (sms.map fun sm => sm.cfg.depositTx) := by
  refine ext_getElem? fun i => ?_
  rw [getElem?_newContracts, getElem?_map]
  cases hi : sms[i]? with
  | none => rfl
  | some sm =>
    obtain ⟨depositTx, rfl, -⟩ := h i sm hi
    rfl

theorem Numbers.exists_of_get {idx : ℕ} {txs : List Transaction}
    (h : Numbers env ctx idx txs deposits) {j : ℕ} {depositTx : DepositTx}
    (hj : deposits[j]? = some depositTx) :
    ∃ tx ∈ txs, AcceptsRequest env ctx (idx + j) tx depositTx := by
  induction h generalizing j with
  | nil => simp at hj
  | pass _ ih =>
    obtain ⟨tx, htx, hacc⟩ := ih hj
    exact ⟨tx, mem_cons_of_mem _ htx, hacc⟩
  | accept hacc _ ih =>
    cases j with
    | zero =>
      cases hj
      exact ⟨_, mem_cons_self, hacc⟩
    | succ j =>
      obtain ⟨tx, htx, hacc'⟩ := ih hj
      refine ⟨tx, mem_cons_of_mem _ htx, ?_⟩
      rw [Nat.add_right_comm] at hacc'
      exact hacc'

theorem Numbers.length_le {idx : ℕ} {txs : List Transaction}
    (h : Numbers env ctx idx txs deposits) : deposits.length ≤ txs.length := by
  induction h with
  | nil => exact le_rfl
  | pass _ ih => exact Nat.le_succ_of_le ih
  | accept _ _ ih => exact Nat.succ_le_succ ih

/-! ### Indices -/

def depositIndices (ctx : ContractManagerCtx) : List ℕ :=
  (vals ctx.activeContracts).map fun sm => sm.cfg.depositIdx

theorem depositIdxOffset_eq (h : ctx.depositIndices.Perm (range n)) :
    ctx.depositIdxOffset = n := by
  refine le_antisymm ?_ ?_
  · rw [depositIdxOffset, foldl_eq_foldr]
    refine max_le_of_forall_le _ _ fun i hi => ?_
    obtain ⟨sm, hsm, rfl⟩ := mem_map.mp hi
    have hmem : sm.cfg.depositIdx ∈ ctx.depositIndices := mem_map_of_mem hsm
    exact mem_range.mp (h.mem_iff.mp hmem)
  · cases n with
    | zero => exact Nat.zero_le _
    | succ n =>
      have hmem : n ∈ ctx.depositIndices := h.mem_iff.mpr (mem_range.mpr (Nat.lt_succ_self n))
      obtain ⟨sm, hsm, rfl⟩ := mem_map.mp hmem
      obtain ⟨k, hk⟩ := mem_vals.mp hsm
      exact lt_depositIdxOffset hk

theorem depositIndices_eq (h : Moves env G ctx ctx') :
    ctx'.depositIndices = ctx.depositIndices := by
  refine map_vals_eq fun k => ?_
  cases hk : ctx'.activeContracts[k]? with
  | none =>
    have hnot : k ∉ ctx.activeContracts := fun hmem =>
      notMem_iff.mpr hk ((h.mem_iff k).mpr hmem)
    rw [notMem_iff.mp hnot]
  | some sm' =>
    obtain ⟨sm, hsm, hreach⟩ := h.exists_of_get hk
    rw [hsm, Option.map_some, Option.map_some, hreach.cfg]

theorem depositIndices_addContracts (hnodup : (sms.map fun sm => sm.depositTxid env).Nodup)
    (hfresh : ∀ sm ∈ sms, sm.depositTxid env ∉ ctx.activeContracts) :
    (ctx.addContracts env sms).depositIndices.Perm
      (ctx.depositIndices ++ sms.map fun sm => sm.cfg.depositIdx) := by
  induction sms generalizing ctx with
  | nil =>
    rw [map_nil, append_nil]
    exact .refl _
  | cons sm sms ih =>
    rw [map_cons, nodup_cons] at hnodup
    have hsm := hfresh sm mem_cons_self
    have hput : (ctx.putContract (sm.depositTxid env) sm).depositIndices.Perm
        (sm.cfg.depositIdx :: ctx.depositIndices) :=
      (vals_insert_perm hsm sm).map fun sm : ContractSM => sm.cfg.depositIdx
    refine (ih hnodup.2 fun sm' hsm' hmem => ?_).trans ?_
    · have hmem : sm'.depositTxid env ∈
          (ctx.putContract (sm.depositTxid env) sm).activeContracts := hmem
      rw [putContract, Std.ExtTreeMap.mem_insert] at hmem
      rcases hmem with heq | hmem
      · refine hnodup.1 ?_
        rw [Std.LawfulEqOrd.compare_eq_iff_eq.mp heq]
        exact mem_map_of_mem hsm'
      · exact hfresh sm' (mem_cons_of_mem sm hsm') hmem
    · exact (hput.append_right _).trans perm_middle.symm

/-- Different deposits that a block can lead to have different txids. The index is a part of the
deposit, so that deposits with different indices are different. -/
def DistinctTxids (env : Env) (ctx : ContractManagerCtx) (b : Block) : Prop :=
  ∀ tx ∈ b.txdata, ∀ tx' ∈ b.txdata,
    ∀ idx ∈ range' ctx.depositIdxOffset b.txdata.length,
    ∀ idx' ∈ range' ctx.depositIdxOffset b.txdata.length,
    ∀ depositTx ∈ ctx.depositAt env idx tx, ∀ depositTx' ∈ ctx.depositAt env idx' tx',
      depositTx.tx.computeTxid env = depositTx'.tx.computeTxid env → idx = idx'

instance (env : Env) (ctx : ContractManagerCtx) (b : Block) : Decidable (DistinctTxids env ctx b) :=
  inferInstanceAs (Decidable (∀ tx ∈ b.txdata, ∀ tx' ∈ b.txdata, _))

private theorem Numbers.nodup (h : Numbers env ctx ctx.depositIdxOffset b.txdata deposits)
    (hd : DistinctTxids env ctx b) :
    (deposits.map fun depositTx => depositTx.tx.computeTxid env).Nodup := by
  have hlen := h.length_le
  refine nodup_iff_getElem?_ne_getElem?.mpr fun i j hij hj heq => ?_
  rw [length_map] at hj
  have hdi : deposits[i]? = some (deposits[i]) := getElem?_eq_getElem (hij.trans hj)
  have hdj : deposits[j]? = some (deposits[j]) := getElem?_eq_getElem hj
  obtain ⟨tx, htx, hacc⟩ := h.exists_of_get hdi
  obtain ⟨tx', htx', hacc'⟩ := h.exists_of_get hdj
  rw [getElem?_map, getElem?_map, hdi, hdj] at heq
  have hidx := hd tx htx tx' htx' (ctx.depositIdxOffset + i) (by simp; omega)
    (ctx.depositIdxOffset + j) (by simp; omega) _ hacc.builds _ hacc'.builds (Option.some.inj heq)
  omega

theorem get_addContracts_of_mem (hnodup : (sms.map fun sm => sm.depositTxid env).Nodup)
    {sm : ContractSM} (hsm : sm ∈ sms) :
    (ctx.addContracts env sms).activeContracts[sm.depositTxid env]? = some sm := by
  induction sms generalizing ctx with
  | nil => cases hsm
  | cons sm' sms ih =>
    rw [map_cons, nodup_cons] at hnodup
    rcases mem_cons.mp hsm with rfl | hsm
    · rw [addContracts, foldl_cons]
      refine (get_addContracts_of_ne fun sm' hsm' heq => hnodup.1 ?_).trans ?_
      · rw [← heq]
        exact mem_map_of_mem hsm'
      · exact get_insert_self _ _ _
    · exact ih hnodup.2 hsm

/-- What a processed block leaves: the contracts have moved and are at the height of the block, and
the contracts of the new requests have come in. -/
theorem processBlock_numbers (h : ctx.processBlock env b = .ok ctx' es) :
    ∃ ctx₁, EvolvesByChain env ctx ctx₁ ∧
      (∀ (k : Txid) sm, ctx₁.activeContracts[k]? = some sm → sm.state.blockHeight = b.height) ∧
      ctx' = (ctx₁.addContracts env
        (ctx.newContracts b.height ctx.depositIdxOffset (ctx.newRequests env b))).commitAll := by
  obtain ⟨-, ctx₁, hevolves, hheights, sms, hnew, hsms, rfl⟩ :=
    (processBlock_decided env ctx b).2 ctx' es h
  exact ⟨ctx₁, hevolves, hheights, by rw [← hsms, ← newContracts_eq hnew]⟩

/-- The contracts after a block that was processed: those that were there, and those of the requests
that the block adds. -/
structure AddsRequests (env : Env) (ctx : ContractManagerCtx) (b : Block) (n : ℕ)
    (ctx' : ContractManagerCtx) : Prop where
  old : ∀ (k : Txid) sm, ctx.activeContracts[k]? = some sm →
    ∃ sm', ctx'.activeContracts[k]? = some sm' ∧ sm'.cfg = sm.cfg
  new : ∀ j depositTx, (ctx.newRequests env b)[j]? = some depositTx →
    ctx'.activeContracts[depositTx.tx.computeTxid env]? =
      some (ctx.newContract b.height (n + j) depositTx)
  cases : ∀ (k : Txid) sm, ctx'.activeContracts[k]? = some sm →
    (∃ j depositTx, (ctx.newRequests env b)[j]? = some depositTx ∧
      depositTx.tx.computeTxid env = k ∧ sm = ctx.newContract b.height (n + j) depositTx) ∨
    ∃ sm₀, ctx.activeContracts[k]? = some sm₀ ∧ sm.cfg = sm₀.cfg ∧ sm.state.blockHeight = b.height
  order : Numbers env ctx n b.txdata (ctx.newRequests env b)
  indices : ctx'.depositIndices.Perm (range (n + (ctx.newRequests env b).length))

theorem processBlock_addsRequests (hindices : ctx.depositIndices.Perm (range n))
    (hdistinct : DistinctTxids env ctx b) (h : ctx.processBlock env b = .ok ctx' es) :
    AddsRequests env ctx b n ctx' := by
  obtain rfl := depositIdxOffset_eq hindices
  have hnum := newRequests_numbers env ctx b
  obtain ⟨ctx₁, hevolves, hheights, rfl⟩ := processBlock_numbers h
  have hnodup := hnum.nodup hdistinct
  rw [← map_depositTxid_newContracts b.height ctx.depositIdxOffset] at hnodup
  have hfresh : ∀ sm ∈ ctx.newContracts b.height ctx.depositIdxOffset (ctx.newRequests env b),
      sm.depositTxid env ∉ ctx.activeContracts := by
    intro sm hsm
    obtain ⟨j, depositTx, hj, rfl⟩ := exists_of_mem_newContracts hsm
    obtain ⟨tx, -, hacc⟩ := hnum.exists_of_get hj
    exact hacc.fresh
  refine ⟨fun k sm hk => ?_, fun j depositTx hj => ?_, fun k sm hk => ?_, hnum, ?_⟩
  · obtain ⟨sm', hk', hreach⟩ := hevolves.exists_get_of hk
    refine ⟨sm', ?_, hreach.cfg⟩
    refine (get_addContracts_of_ne fun sm'' hsm'' heq => hfresh sm'' hsm'' ?_).trans hk'
    rw [heq]
    exact mem_iff_exists.mpr ⟨sm, hk⟩
  · have hsm : (ctx.newContracts b.height ctx.depositIdxOffset (ctx.newRequests env b))[j]? =
        some (ctx.newContract b.height (ctx.depositIdxOffset + j) depositTx) := by
      rw [getElem?_newContracts, hj]
      rfl
    exact get_addContracts_of_mem hnodup (mem_of_getElem? hsm)
  · rcases get_addContracts hk with ⟨hsm, hkey⟩ | hk
    · obtain ⟨j, depositTx, hj, rfl⟩ := exists_of_mem_newContracts hsm
      exact .inl ⟨j, depositTx, hj, hkey, rfl⟩
    · obtain ⟨sm₀, hsm₀, hreach⟩ := hevolves.exists_of_get hk
      exact .inr ⟨sm₀, hsm₀, hreach.cfg, hheights k sm hk⟩
  · have hperm := depositIndices_addContracts hnodup fun sm hsm hmem =>
      hfresh sm hsm ((hevolves.mem_iff _).mp hmem)
    rw [map_depositIdx_newContracts, depositIndices_eq hevolves.toMoves] at hperm
    refine hperm.trans ((hindices.append_right _).trans (.of_eq ?_))
    rw [range_eq_range', range_eq_range', ← range'_append_1, Nat.zero_add]

/-- Heights and indices as they should be after a block: every contract is at its height, the old
contracts keep their indices, the requests that the block adds have the next ones in their order,
and no index goes to a request that was known. -/
structure NumbersRequests (env : Env) (ctx : ContractManagerCtx) (b : Block) (n : ℕ)
    (ctx' : ContractManagerCtx) : Prop where
  heights : ∀ (k : Txid) sm, ctx'.activeContracts[k]? = some sm → sm.state.blockHeight = b.height
  indices : ctx'.depositIndices.Perm (range (n + (ctx.newRequests env b).length))
  old : ∀ (k : Txid) sm, ctx.activeContracts[k]? = some sm →
    ∃ sm', ctx'.activeContracts[k]? = some sm' ∧ sm'.cfg.depositIdx = sm.cfg.depositIdx
  order : Numbers env ctx n b.txdata (ctx.newRequests env b)
  new : ∀ j depositTx, (ctx.newRequests env b)[j]? = some depositTx →
    ∃ sm, ctx'.activeContracts[depositTx.tx.computeTxid env]? = some sm ∧
      sm.cfg.depositIdx = n + j ∧ sm.cfg.depositTx = depositTx
  first : ∀ (k k' : Txid) sm sm', k ∉ ctx.activeContracts → ctx'.activeContracts[k]? = some sm →
    ctx'.activeContracts[k']? = some sm' →
    sm'.cfg.depositRequestTxid = sm.cfg.depositRequestTxid → k' = k

/-- No request that the block adds is that of a contract, or that of another one of the block. -/
def FirstRequests (env : Env) (ctx : ContractManagerCtx) (b : Block) : Prop :=
  (∀ depositTx ∈ ctx.newRequests env b, ¬ctx.HasRequest depositTx.requestTxid) ∧
    ((ctx.newRequests env b).map DepositTx.requestTxid).Nodup

instance (ctx : ContractManagerCtx) (requestTxid : Txid) : Decidable (ctx.HasRequest requestTxid) :=
  decidable_of_iff (∃ e ∈ ctx.activeContracts.toList, e.2.cfg.depositRequestTxid = requestTxid)
    (by simp [HasRequest])

instance (env : Env) (ctx : ContractManagerCtx) (b : Block) : Decidable (FirstRequests env ctx b) :=
  inferInstanceAs (Decidable (_ ∧ _))

theorem NumbersRequests.firstRequests (h : NumbersRequests env ctx b n ctx')
    (hadds : AddsRequests env ctx b n ctx') (hdistinct : DistinctTxids env ctx b)
    (hoffset : ctx.depositIdxOffset = n) : FirstRequests env ctx b := by
  have hfresh (j : ℕ) (depositTx : DepositTx) (hj : (ctx.newRequests env b)[j]? = some depositTx) :
      depositTx.tx.computeTxid env ∉ ctx.activeContracts := by
    obtain ⟨tx, -, hacc⟩ := hadds.order.exists_of_get hj
    exact hacc.fresh
  refine ⟨fun depositTx hmem hknown => ?_, ?_⟩
  · obtain ⟨k, sm, hk, hrequest⟩ := hknown
    obtain ⟨j, hj⟩ := getElem?_of_mem hmem
    obtain ⟨sm', hk', hcfg⟩ := hadds.old k sm hk
    have heq := h.first _ k _ sm' (hfresh j depositTx hj) (hadds.new j depositTx hj) hk'
      (by rw [hcfg]; exact hrequest)
    exact hfresh j depositTx hj (heq ▸ mem_iff_exists.mpr ⟨sm, hk⟩)
  · have hnodup := (hoffset ▸ hadds.order).nodup hdistinct
    rw [nodup_iff_getElem?_ne_getElem?] at hnodup ⊢
    intro i j hij hj heq
    rw [length_map] at hj
    have hdi := getElem?_eq_getElem (hij.trans hj)
    have hdj := getElem?_eq_getElem hj
    refine hnodup i j hij (by rwa [length_map]) ?_
    rw [getElem?_map, getElem?_map, hdi, hdj] at heq ⊢
    exact congrArg some (h.first _ _ _ _ (hfresh j _ hdj) (hadds.new j _ hdj) (hadds.new i _ hdi)
      (Option.some.inj heq))

private theorem FirstRequests.numbersRequests (h : FirstRequests env ctx b)
    (hadds : AddsRequests env ctx b n ctx') : NumbersRequests env ctx b n ctx' where
  heights k sm hk := by
    rcases hadds.cases k sm hk with ⟨j, depositTx, -, -, rfl⟩ | ⟨sm₀, -, -, hheight⟩
    · rfl
    · exact hheight
  indices := hadds.indices
  old k sm hk := by
    obtain ⟨sm', hk', hcfg⟩ := hadds.old k sm hk
    exact ⟨sm', hk', by rw [hcfg]⟩
  order := hadds.order
  new j depositTx hj := ⟨_, hadds.new j depositTx hj, rfl, rfl⟩
  first k k' sm sm' hnew hk hk' hsame := by
    rcases hadds.cases k sm hk with ⟨j, depositTx, hj, rfl, rfl⟩ | ⟨sm₀, hk₀, -⟩
    · rcases hadds.cases k' sm' hk' with ⟨j', depositTx', hj', rfl, rfl⟩ | ⟨sm₀, hk₀, hcfg, -⟩
      · rw [inj_on_of_nodup_map h.2 (mem_of_getElem? hj') (mem_of_getElem? hj) hsame]
      · rw [hcfg] at hsame
        exact absurd ⟨k', sm₀, hk₀, hsame⟩ (h.1 depositTx (mem_of_getElem? hj))
    · exact absurd (mem_iff_exists.mpr ⟨sm₀, hk₀⟩) hnew

/-- **Heights and indices after a block.** When the indices of the contracts are those below `n` and
the block is processed, heights and indices are as they should be exactly if none of the requests
that the block adds was known. A block is processed only if every contract was one height below
it. -/
theorem block_numbers_deposits (env : Env) (hindices : ctx.depositIndices.Perm (range n))
    (hdistinct : DistinctTxids env ctx b) (h : ctx.processBlock env b = .ok ctx' es) :
    NumbersRequests env ctx b n ctx' ↔ FirstRequests env ctx b := by
  have hadds := processBlock_addsRequests hindices hdistinct h
  exact ⟨fun hnum => hnum.firstRequests hadds hdistinct (depositIdxOffset_eq hindices),
    fun hfirst => hfirst.numbersRequests hadds⟩

private def numbers (indices : List ℕ) : ContractManagerCtx.Reply → Bool
  | .ok ctx' _ => decide (ctx'.depositIndices.Perm indices)
  | _ => false

/-- A manager with one deposit is given a block with two requests, and with the deposit between
them. -/
theorem two_requests_numbered :
    ∃ (ctx ctx' : ContractManagerCtx) (es : List Emission),
      ctx.depositIndices.Perm (range 1) ∧
      ctx.processBlock plain ⟨some 101, [requestTx oneOperator 2,
        depositOf oneOperator 1 0, requestTx oneOperator 3]⟩ = .ok ctx' es ∧
      ctx'.depositIndices.Perm (range 3) ∧
      NumbersRequests plain ctx ⟨some 101, [requestTx oneOperator 2,
        depositOf oneOperator 1 0, requestTx oneOperator 3]⟩ 1 ctx' := by
  obtain ⟨ctx, -, -, hp⟩ := exists_run_of_exec (serve plain) (fun _ _ => True) (manager oneOperator)
    [exchange 0, block 100 [requestTx oneOperator 1]]
    (fun ctx _ =>
      let b := ⟨some 101, [requestTx oneOperator 2, depositOf oneOperator 1 0,
        requestTx oneOperator 3]⟩
      decide (ctx.depositIndices = [0] ∧ DistinctTxids plain ctx b ∧ FirstRequests plain ctx b) &&
        numbers [0, 1, 2] (ctx.processBlock plain b)) (by decide +kernel)
  simp only [Bool.and_eq_true, decide_eq_true_eq] at hp
  obtain ⟨⟨hindices, hdistinct, hfirst⟩, hblock⟩ := hp
  have hperm : ctx.depositIndices.Perm (range 1) := .of_eq hindices
  unfold numbers at hblock
  split at hblock
  next ctx' es hr =>
    exact ⟨ctx, ctx', es, hperm, hr, of_decide_eq_true hblock,
      (block_numbers_deposits plain hperm hdistinct hr).mpr hfirst⟩
  · cases hblock

/-- A block with the request of the only contract, which has the index 0, is processed: the request
gets a second contract, with the index 1. -/
theorem known_request_numbered :
    ∃ (ctx ctx' : ContractManagerCtx) (es : List Emission),
      Reachable (serve plain) (fun _ _ => True) (manager oneOperator) ctx ∧
      ctx.depositIndices = [0] ∧
      DistinctTxids plain ctx ⟨some 101, [requestTx oneOperator 1]⟩ ∧
      ctx.HasRequest (plain.computeTxid (requestTx oneOperator 1)) ∧
      ctx.processBlock plain ⟨some 101, [requestTx oneOperator 1]⟩ = .ok ctx' es ∧
      ctx'.depositIndices.Perm [0, 1] ∧
      ¬NumbersRequests plain ctx ⟨some 101, [requestTx oneOperator 1]⟩ 1
        ctx' := by
  obtain ⟨ctx, es, hrun, hp⟩ := exists_run_of_exec (serve plain) (fun _ _ => True)
    (manager oneOperator)
    [exchange 0, block 100 [requestTx oneOperator 1]]
    (fun ctx _ =>
      let b := ⟨some 101, [requestTx oneOperator 1]⟩
      decide (ctx.depositIndices = [0] ∧ DistinctTxids plain ctx b ∧
        ctx.HasRequest (plain.computeTxid (requestTx oneOperator 1)) ∧
        ¬FirstRequests plain ctx b) && numbers [0, 1] (ctx.processBlock plain b))
    (by decide +kernel)
  simp only [Bool.and_eq_true, decide_eq_true_eq] at hp
  obtain ⟨⟨hindices, hdistinct, hknown, hfirst⟩, hblock⟩ := hp
  unfold numbers at hblock
  split at hblock
  next ctx' es' hr =>
    refine ⟨ctx, ctx', es', ⟨es, hrun⟩, hindices, hdistinct, hknown, hr,
      of_decide_eq_true hblock, fun hnum => hfirst ?_⟩
    have hperm : ctx.depositIndices.Perm (range 1) := .of_eq hindices
    exact hnum.firstRequests (processBlock_addsRequests hperm hdistinct hr) hdistinct
      (depositIdxOffset_eq hperm)
  · cases hblock

end ContractManagerCtx

end StrataBridge
