import StrataBridge.DutyTracker.Startup
import StrataBridge.Instance.LinearChain

/-!
# The order of blocks at the start of a node

A node that starts hands out the buried blocks that its contracts have not seen: first it fetches
those up to the block count less the bury depth, then it takes them from its subscription. The two
fit together when, at the subscription, the client has let exactly the fetched blocks out of its
queue. Nothing in the code makes them fit: the block count is read, and then the subscription is
made, while the client is given blocks at its own pace. A block that the client is given in between
is skipped, and one that was counted and not given yet is handed out twice; both are rejected by
every contract. A block that arrives between the first count and the connection is never announced,
and the next one does not extend the queue of the client, which then reports nothing any more.

## Main definitions

* `Startup.Consecutive`: no block is skipped or repeated
* `Startup.InStep`: count and subscription fit together

## Main results

* `Startup.handed_consecutive_iff`: the former holds exactly if the latter does
* `Startup.disturbed_starts`: a skipped, a repeated and a lost block

## References

* `bin/alpen-bridge/src/mode/operator.rs`, lines 169–182
* `crates/duty-tracker/src/contract_manager.rs`, lines 158–177, 239–271 and 397–425
-/

namespace StrataBridge

open Rust Transition Linear List

/-! ### Blocks between two heights -/

section Between

variable {chain : List ChainBlock} {low high : ℕ} {b : ChainBlock}

theorem length_blocksBetween (h : high < chain.length) :
    (blocksBetween chain low high).length = high - low := by
  simp only [blocksBetween, length_drop, length_take]
  omega

theorem blocksBetween_of_le (h : high ≤ low) : blocksBetween chain low high = [] := by
  refine drop_eq_nil_of_le ?_
  simp only [length_take]
  omega

theorem blocksBetween_append (h : high < chain.length) (rest : List ChainBlock) :
    blocksBetween (chain ++ rest) low high = blocksBetween chain low high := by
  rw [blocksBetween, blocksBetween, take_append_of_le_length h]

theorem blocksBetween_succ (h : low ≤ high) (hb : chain[high + 1]? = some b) :
    blocksBetween chain low (high + 1) = blocksBetween chain low high ++ [b] := by
  have hlt : high + 1 < chain.length := (List.getElem?_eq_some_iff.mp hb).1
  rw [blocksBetween, take_add_one, hb, drop_append_of_le_length]
  · rfl
  · rw [length_take]
    omega

theorem blocksBetween_cons (h : low < high) (hb : chain[low + 1]? = some b) :
    blocksBetween chain low high = b :: blocksBetween chain (low + 1) high := by
  have hget : (chain.take (high + 1))[low + 1]? = some b := by
    rw [getElem?_take_of_lt (by omega), hb]
  exact drop_eq_getElem?_toList_append.trans (by rw [hget]; rfl)

theorem getElem?_of_mem_getLast? (h : high < chain.length)
    (hb : b ∈ (blocksBetween chain low high).getLast?) : chain[high]? = some b := by
  have hlt : low < high := by
    by_contra hle
    rw [blocksBetween_of_le (Nat.le_of_not_lt hle)] at hb
    cases hb
  obtain ⟨k, rfl⟩ := Nat.exists_eq_succ_of_ne_zero (Nat.ne_of_gt (Nat.zero_lt_of_lt hlt))
  have hk : chain[k + 1]? = some (chain[k + 1]) := getElem?_eq_getElem h
  rw [blocksBetween_succ (Nat.le_of_lt_succ hlt) hk, getLast?_concat] at hb
  rw [← hb]
  exact hk

theorem Linked.map_height_blocksBetween (hchain : Linked chain) (h : high < chain.length) :
    (blocksBetween chain low high).map (fun b => b.height) = range' (low + 1) (high - low) := by
  refine ext_getElem? fun i => ?_
  by_cases hi : i < high - low
  · have hlt : low + 1 + i < chain.length := by omega
    have hget : (blocksBetween chain low high)[i]? = some (chain[low + 1 + i]) := by
      rw [blocksBetween, getElem?_drop, getElem?_take_of_lt (by omega), getElem?_eq_getElem hlt]
    rw [getElem?_map, hget, getElem?_range' hi, Option.map_some,
      hchain.height_eq _ _ (getElem?_eq_getElem hlt), Nat.one_mul]
  · rw [getElem?_eq_none]
    · simpa using hi
    · simpa [length_blocksBetween h] using hi

end Between

theorem Linked.length_pos {chain : List ChainBlock} (h : Linked chain) : 0 < chain.length :=
  length_pos_iff.mpr h.nonempty

theorem Linked.snoc {chain : List ChainBlock} (h : Linked chain) {block : ChainBlock}
    (hheight : block.height = chain.length)
    (hprev : ∀ tip ∈ chain.getLast?, block.prevBlockhash = tip.blockHash) :
    Linked (chain ++ [block]) where
  nonempty := by simp
  height_eq := by
    intro n b hb
    rcases Nat.lt_trichotomy n chain.length with hlt | rfl | hgt
    · rw [getElem?_append_left hlt] at hb
      exact h.height_eq n b hb
    · rw [getElem?_concat_length] at hb
      rw [← Option.some.inj hb]
      exact hheight
    · rw [getElem?_eq_none (by rw [length_append, length_singleton]; omega)] at hb
      cases hb
  extends_eq := by
    intro n a b ha hb
    rcases Nat.lt_trichotomy (n + 1) chain.length with hlt | heq | hgt
    · rw [getElem?_append_left (by omega)] at ha
      rw [getElem?_append_left hlt] at hb
      exact h.extends_eq n a b ha hb
    · rw [getElem?_append_left (by omega)] at ha
      rw [heq, getElem?_concat_length] at hb
      rw [← Option.some.inj hb]
      refine hprev a ?_
      rw [getLast?_eq_getElem?, ← heq]
      exact ha
    · rw [getElem?_eq_none (by rw [length_append, length_singleton]; omega)] at hb
      cases hb

/-! ### The client -/

def buriedBlocks (events : List BlockEvent) : List ChainBlock :=
  (events.filter fun ev => ev.status = .buried).map BlockEvent.block

theorem buriedBlocks_append (events events' : List BlockEvent) :
    buriedBlocks (events ++ events') = buriedBlocks events ++ buriedBlocks events' := by
  rw [buriedBlocks, filter_append, map_append]
  rfl

/-- The client was given the chain up to a height, and its queue holds the newest of these
blocks. -/
structure ZmqStream.Given (depth : ℕ) (chain : List ChainBlock) (client : ZmqStream)
    (height : ℕ) : Prop where
  length_eq : height + 1 + client.pending.length = chain.length
  pending : client.pending = chain.drop (height + 1)
  buryDepth : client.sm.buryDepth = depth
  unburiedBlocks :
    client.sm.unburiedBlocks = (blocksBetween chain (height - depth) height).reverse

namespace ZmqStream.Given

variable {depth : ℕ} {chain : List ChainBlock} {client : ZmqStream} {height : ℕ}

theorem announce (h : client.Given depth chain height) (block : ChainBlock) :
    (client.announce block).Given depth (chain ++ [block]) height where
  length_eq := by
    simp only [ZmqStream.announce, length_append]
    have := h.length_eq
    omega
  pending := by
    have hle : height + 1 ≤ chain.length := by
      have := h.length_eq
      omega
    rw [ZmqStream.announce, h.pending, drop_append_of_le_length hle]
  buryDepth := h.buryDepth
  unburiedBlocks := by
    have hlt : height < chain.length := by
      have := h.length_eq
      omega
    rw [blocksBetween_append hlt]
    exact h.unburiedBlocks

/-- **One block for the client.** It comes on the queue, and the block that falls out of the queue
is reported as buried. -/
theorem deliver (h : client.Given depth chain height) (hchain : Linked chain) {env : Env}
    {client' : ZmqStream} {events : List BlockEvent}
    (hd : client.deliver env = some (client', events)) :
    client'.Given depth chain (height + 1) ∧
      buriedBlocks events = blocksBetween chain (height - depth) (height + 1 - depth) := by
  have hlen := h.length_eq
  cases hp : client.pending with
  | nil => simp [ZmqStream.deliver, hp] at hd
  | cons block rest =>
    rw [hp, length_cons] at hlen
    have hdrop : chain.drop (height + 1) = block :: rest := by rw [← h.pending, hp]
    have hblock : chain[height + 1]? = some block := by
      rw [← head?_drop, hdrop]
      rfl
    have hrest : rest = chain.drop (height + 1 + 1) := by
      rw [← tail_drop, hdrop]
      rfl
    have hqueue : block :: client.sm.unburiedBlocks =
        (blocksBetween chain (height - depth) (height + 1)).reverse := by
      rw [blocksBetween_succ (Nat.sub_le _ _) hblock, reverse_append, h.unburiedBlocks]
      rfl
    have hsize : client.sm.unburiedBlocks.length = height - (height - depth) := by
      rw [h.unburiedBlocks, length_reverse, length_blocksBetween (by omega)]
    have hext : ∀ tip ∈ client.sm.unburiedBlocks.head?, block.prevBlockhash = tip.blockHash := by
      intro tip htip
      rw [h.unburiedBlocks, head?_reverse] at htip
      exact hchain.extends_eq height tip block (getElem?_of_mem_getLast? (by omega) htip) hblock
    have hlen' : height + 1 + 1 + rest.length = chain.length := by omega
    rcases Nat.lt_or_ge height depth with hlt | hge
    · obtain ⟨sm', txEvents, hok, hans⟩ := client.sm.process_extend env hext
        (by rw [h.buryDepth]; omega)
      simp only [ZmqStream.deliver, hp, hok] at hd
      obtain ⟨rfl, rfl⟩ := hd
      refine ⟨⟨hlen', hrest, hans.buryDepth.trans h.buryDepth, ?_⟩, ?_⟩
      · rw [hans.unburiedBlocks, hqueue, Nat.sub_eq_zero_of_le hlt, Nat.sub_eq_zero_of_le hlt.le]
      · rw [blocksBetween_of_le (by omega)]
        rfl
    · obtain ⟨oldest, hold⟩ : ∃ oldest, chain[height - depth + 1]? = some oldest :=
        ⟨_, getElem?_eq_getElem (by omega)⟩
      have hsub : height + 1 - depth = height - depth + 1 := by omega
      rw [blocksBetween_cons (by omega) hold, reverse_cons] at hqueue
      obtain ⟨sm', txEvents, hok, hans⟩ := client.sm.process_bury env hext
        (by rw [h.buryDepth]; omega) hqueue
      simp only [ZmqStream.deliver, hp, hok] at hd
      obtain ⟨rfl, rfl⟩ := hd
      refine ⟨⟨hlen', hrest, hans.buryDepth.trans h.buryDepth, ?_⟩, ?_⟩
      · rw [hans.unburiedBlocks, hsub]
      · rw [hsub, blocksBetween_succ le_rfl hold, blocksBetween_of_le le_rfl]
        rfl

end ZmqStream.Given

/-! ### The node -/

namespace Startup

/-- What was handed out: fetched blocks from the restored height on, and then blocks that the client
has reported as buried since the subscription. -/
structure Feeds (depth : ℕ) (chain : List ChainBlock) (height : ℕ) (feed : BlockFeed)
    (handed : List ChainBlock) : Prop where
  restored_le : feed.restored ≤ feed.cursor
  cursor_le : feed.cursor ≤ feed.current
  current_lt : feed.current < chain.length
  seen_le : feed.seen ≤ height
  handed_eq : ∃ taken, handed = blocksBetween chain feed.restored feed.cursor ++ taken ∧
    taken ++ buriedBlocks feed.inbox = blocksBetween chain (feed.seen - depth) (height - depth) ∧
    (taken ≠ [] → feed.cursor = feed.current)

inductive Sound (depth : ℕ) (contracts : BTreeMap Txid ContractSM) :
    Startup → List ChainBlock → Prop
  | start {chain} (hchain : Linked chain) :
      Sound depth contracts ⟨depth, contracts, chain, .start⟩ []
  | counted {chain current queue} (hchain : Linked chain) (hcurrent : current < chain.length)
      (hqueue : queue = (blocksBetween chain (current - depth) current).reverse) :
      Sound depth contracts ⟨depth, contracts, chain, .counted current queue⟩ []
  | connected {chain client height} (hchain : Linked chain)
      (hclient : client.Given depth chain height) :
      Sound depth contracts ⟨depth, contracts, chain, .connected client⟩ []
  | recounted {chain client height current} (hchain : Linked chain)
      (hclient : client.Given depth chain height) (hcurrent : current < chain.length)
      (hrestored : ∀ h ∈ restoredHeight contracts, h ≤ current) :
      Sound depth contracts ⟨depth, contracts, chain, .recounted client current⟩ []
  | subscribed {chain client height feed handed} (hchain : Linked chain)
      (hclient : client.Given depth chain height) (hfeed : Feeds depth chain height feed handed) :
      Sound depth contracts ⟨depth, contracts, chain, .subscribed client feed⟩ handed

variable {depth : ℕ} {contracts : BTreeMap Txid ContractSM} {s s' : Startup}
  {handed : List ChainBlock} {env : Env}

/-- The queue of the first count holds the newest blocks. -/
theorem unburied_eq (s : Startup) {current : ℕ} (h : current < s.chain.length) :
    s.unburied current = (blocksBetween s.chain (current - s.buryDepth) current).reverse := by
  have hfold : ∀ (n low : ℕ), low + n < s.chain.length →
      (range' (low + 1) n).foldl (fun queue height => s.chain[height]?.toList ++ queue) [] =
        (blocksBetween s.chain low (low + n)).reverse := by
    intro n low hn
    induction n with
    | zero =>
      rw [blocksBetween_of_le (Nat.le_of_eq (Nat.add_zero low))]
      rfl
    | succ n ih =>
      have hb : s.chain[low + n + 1]? = some (s.chain[low + n + 1]) := getElem?_eq_getElem hn
      rw [range'_concat, foldl_append, ih (by omega), ← Nat.add_assoc,
        blocksBetween_succ (Nat.le_add_right _ _) hb, reverse_append, Nat.one_mul,
        Nat.add_right_comm low 1 n, foldl_cons, hb]
      rfl
  have hsum : current - s.buryDepth + (current - (current - s.buryDepth)) = current := by omega
  have := hfold (current - (current - s.buryDepth)) (current - s.buryDepth) (by omega)
  rw [hsum] at this
  exact this

namespace Feeds

variable {chain : List ChainBlock} {height : ℕ} {feed : BlockFeed}

theorem subscription {client : ZmqStream} {current : ℕ} (hs : s.chain = chain)
    (hclient : client.Given depth chain height) (hcurrent : current < chain.length)
    (hrestored : ∀ h ∈ restoredHeight s.activeContracts, h ≤ current) :
    Feeds depth chain height (s.subscription client current) [] := by
  have hseen : (s.subscription client current).seen = height := by
    have := hclient.length_eq
    change s.chain.length - 1 - client.pending.length = height
    rw [hs]
    omega
  refine ⟨le_rfl, ?_, hcurrent, hseen.le, [], ?_, ?_, by simp⟩
  · simp only [Startup.subscription]
    cases hr : restoredHeight s.activeContracts with
    | none => exact le_rfl
    | some h => exact hrestored h hr
  · rw [append_nil]
    exact (blocksBetween_of_le (le_refl (s.subscription client current).restored)).symm
  · rw [hseen, blocksBetween_of_le le_rfl]
    rfl

variable (h : Feeds depth chain height feed handed)
include h

theorem append (hheight : height < chain.length)
    (block : ChainBlock) : Feeds depth (chain ++ [block]) height feed handed := by
  obtain ⟨taken, heq, htaken, hcursor⟩ := h.handed_eq
  have hlt : feed.cursor < chain.length := lt_of_le_of_lt h.cursor_le h.current_lt
  refine ⟨h.restored_le, h.cursor_le, ?_, h.seen_le, taken, ?_, ?_, hcursor⟩
  · rw [length_append]
    exact Nat.lt_add_right _ h.current_lt
  · rw [blocksBetween_append hlt, heq]
  · rw [blocksBetween_append (by omega), htaken]

theorem deliver {events : List BlockEvent}
    (hevents : buriedBlocks events = blocksBetween chain (height - depth) (height + 1 - depth))
    (hheight : height + 1 < chain.length) :
    Feeds depth chain (height + 1) { feed with inbox := feed.inbox ++ events } handed := by
  obtain ⟨taken, heq, htaken, hcursor⟩ := h.handed_eq
  refine ⟨h.restored_le, h.cursor_le, h.current_lt, Nat.le_succ_of_le h.seen_le, taken, heq, ?_,
    hcursor⟩
  rw [buriedBlocks_append, ← append_assoc, htaken, hevents]
  have hseen := h.seen_le
  rcases Nat.lt_or_ge height depth with hlt | hge
  · rw [blocksBetween_of_le (by omega), blocksBetween_of_le (by omega),
      blocksBetween_of_le (by omega), nil_append]
  · have hsub : height + 1 - depth = height - depth + 1 := by omega
    have hold : chain[height - depth + 1]? = some (chain[height - depth + 1]) :=
      getElem?_eq_getElem (by omega)
    rw [hsub, blocksBetween_succ le_rfl hold, blocksBetween_of_le le_rfl,
      blocksBetween_succ (Nat.sub_le_sub_right hseen depth) hold, nil_append]

theorem sync {block : ChainBlock}
    (hlt : feed.cursor < feed.current) (hblock : chain[feed.cursor + 1]? = some block) :
    Feeds depth chain height { feed with cursor := feed.cursor + 1 } (handed ++ [block]) := by
  obtain ⟨taken, heq, htaken, hcursor⟩ := h.handed_eq
  have hnil : taken = [] := by
    by_contra hne
    exact absurd (hcursor hne) (Nat.ne_of_lt hlt)
  subst hnil
  refine ⟨Nat.le_succ_of_le h.restored_le, hlt, h.current_lt, h.seen_le, [], ?_, htaken, by simp⟩
  rw [heq, append_nil, append_nil, blocksBetween_succ h.restored_le hblock]

theorem take {event : BlockEvent} {rest : List BlockEvent} (hle : ¬ feed.cursor < feed.current)
    (hinbox : feed.inbox = event :: rest) :
    Feeds depth chain height { feed with inbox := rest }
      (handed ++ if event.status = .buried then [event.block] else []) := by
  obtain ⟨taken, heq, htaken, hcursor⟩ := h.handed_eq
  have hcurrent : feed.cursor = feed.current := le_antisymm h.cursor_le (Nat.le_of_not_lt hle)
  refine ⟨h.restored_le, h.cursor_le, h.current_lt, h.seen_le,
    taken ++ if event.status = .buried then [event.block] else [], ?_, ?_, fun _ => hcurrent⟩
  · rw [heq, append_assoc]
  · rw [← htaken, hinbox, append_assoc]
    by_cases hst : event.status = .buried <;> simp [buriedBlocks, hst]

end Feeds

/-! ### Runs -/

private theorem Sound.arrive (h : Sound depth contracts s handed) {block : ChainBlock}
    (hext : s.Extends block) : Sound depth contracts (s.arrive block) handed := by
  cases h with
  | start hchain => exact .start (hchain.snoc hext.1 hext.2)
  | counted hchain hcurrent hqueue =>
    refine .counted (hchain.snoc hext.1 hext.2) ?_ ?_
    · rw [length_append]
      exact Nat.lt_add_right _ hcurrent
    · rw [blocksBetween_append hcurrent, hqueue]
  | connected hchain hclient =>
    exact .connected (hchain.snoc hext.1 hext.2) (hclient.announce block)
  | recounted hchain hclient hcurrent hrestored =>
    refine .recounted (hchain.snoc hext.1 hext.2) (hclient.announce block) ?_ hrestored
    rw [length_append]
    exact Nat.lt_add_right _ hcurrent
  | subscribed hchain hclient hfeed =>
    have hlt := hclient.length_eq
    exact .subscribed (hchain.snoc hext.1 hext.2) (hclient.announce block)
      (hfeed.append (by omega) block)

private theorem Sound.deliver (h : Sound depth contracts s handed)
    (hs : s.deliver env = some s') : Sound depth contracts s' handed := by
  cases h with
  | start _ => cases hs
  | counted _ _ _ => cases hs
  | connected hchain hclient =>
    obtain ⟨⟨client', events⟩, hd, rfl⟩ := Option.map_eq_some_iff.mp hs
    exact .connected hchain (hclient.deliver hchain hd).1
  | recounted hchain hclient hcurrent hrestored =>
    obtain ⟨⟨client', events⟩, hd, rfl⟩ := Option.map_eq_some_iff.mp hs
    exact .recounted hchain (hclient.deliver hchain hd).1 hcurrent hrestored
  | subscribed hchain hclient hfeed =>
    obtain ⟨⟨client', events⟩, hd, rfl⟩ := Option.map_eq_some_iff.mp hs
    obtain ⟨hclient', hevents⟩ := hclient.deliver hchain hd
    have hlt := hclient'.length_eq
    exact .subscribed hchain hclient' (hfeed.deliver hevents (by omega))

theorem Sound.step (h : Sound depth contracts s handed) {action : StartupAction}
    {blocks : List ChainBlock} (hq : s.Quiet action)
    (hs : s.step env action = some (s', blocks)) : Sound depth contracts s' (handed ++ blocks) := by
  cases action with
  | arrive block =>
    cases hs
    rw [append_nil]
    exact h.arrive hq
  | deliver =>
    obtain ⟨s'', hd, heq⟩ := Option.map_eq_some_iff.mp hs
    cases heq
    rw [append_nil]
    exact h.deliver hd
  | readCount =>
    cases h with
    | start hchain =>
      cases hs
      have hlt : _ - 1 < _ := Nat.sub_lt hchain.length_pos Nat.one_pos
      exact .counted hchain hlt (unburied_eq _ hlt)
    | _ => cases hs
  | connect =>
    cases h with
    | counted hchain hcurrent hqueue =>
      cases hs
      have hcount : _ - 1 = _ := hq _ rfl
      have hpos := hchain.length_pos
      have hlen : _ + 1 = _ := hcount ▸ Nat.sub_add_cancel hpos
      exact .connected hchain ⟨hlen, (drop_eq_nil_of_le (Nat.le_of_eq hlen.symm)).symm, rfl, hqueue⟩
    | _ => cases hs
  | recount =>
    cases h with
    | connected hchain hclient =>
      cases hs
      have hlt : _ - 1 < _ := Nat.sub_lt hchain.length_pos Nat.one_pos
      rw [wrappingSub, if_pos hq.1]
      exact .recounted hchain hclient (lt_of_le_of_lt (Nat.sub_le _ _) hlt) hq.2
    | _ => cases hs
  | subscribe =>
    cases h with
    | recounted hchain hclient hcurrent hrestored =>
      cases hs
      exact .subscribed hchain hclient (.subscription rfl hclient hcurrent hrestored)
    | _ => cases hs
  | sync =>
    cases h with
    | subscribed hchain hclient hfeed =>
      simp only [Startup.step] at hs
      split_ifs at hs with hlt
      obtain ⟨block, hblock, heq⟩ := Option.map_eq_some_iff.mp hs
      cases heq
      exact .subscribed hchain hclient (hfeed.sync hlt hblock)
    | _ => cases hs
  | take =>
    cases h with
    | @subscribed _ _ _ feed _ hchain hclient hfeed =>
      simp only [Startup.step] at hs
      split_ifs at hs with hlt
      cases hinbox : feed.inbox with
      | nil => simp [hinbox] at hs
      | cons event rest =>
        rw [hinbox] at hs
        cases hs
        exact .subscribed hchain hclient (hfeed.take hlt hinbox)
    | _ => cases hs

theorem sound_of_run {chain : List ChainBlock} (hchain : Linked chain)
    (h : Run (fun s => s.step env) Quiet (init depth contracts chain) handed s) :
    Sound depth contracts s handed :=
  h.invariant (I := fun handed s => Sound depth contracts s handed) (.start hchain)
    fun _ _ _ _ _ ih hq hs => ih.step hq hs

/-- **The law of the handed out blocks.** Their heights are consecutive, each is handed out once,
and the first one is right after the restored height. -/
def Consecutive (restored : ℕ) (handed : List ChainBlock) : Prop :=
  handed.map (fun b => b.height) = range' (restored + 1) handed.length

instance (restored : ℕ) (handed : List ChainBlock) : Decidable (Consecutive restored handed) :=
  inferInstanceAs (Decidable (_ = _))

/-- At the subscription, the newest block that the client has let out of its queue is the one up to
which the node fetches blocks. -/
def InStep (depth : ℕ) (feed : BlockFeed) : Prop := feed.seen - depth = feed.current

instance (depth : ℕ) (feed : BlockFeed) : Decidable (InStep depth feed) :=
  inferInstanceAs (Decidable (_ = _))

namespace Feeds

variable {chain : List ChainBlock} {height : ℕ} {feed : BlockFeed}

variable (h : Feeds depth chain height feed handed)
include h

theorem map_height (hchain : Linked chain) (hheight : height < chain.length) :
    ∃ n, handed.map (fun b => b.height) =
        range' (feed.restored + 1) (feed.cursor - feed.restored) ++
          range' (feed.seen - depth + 1) n ∧
      (n ≠ 0 → feed.cursor = feed.current) ∧
      n + (buriedBlocks feed.inbox).length = height - depth - (feed.seen - depth) := by
  obtain ⟨taken, heq, htaken, hcursor⟩ := h.handed_eq
  have hlt : feed.cursor < chain.length := lt_of_le_of_lt h.cursor_le h.current_lt
  have hlen := congrArg length htaken
  rw [length_append, length_blocksBetween (by omega)] at hlen
  have htake : (blocksBetween chain (feed.seen - depth) (height - depth)).take taken.length =
      taken := by
    rw [← htaken, take_left]
  refine ⟨taken.length, ?_, fun hne => hcursor (by simpa using hne), hlen⟩
  rw [heq, map_append, hchain.map_height_blocksBetween hlt]
  conv_lhs => rw [← htake]
  rw [map_take, hchain.map_height_blocksBetween (by omega), take_range'_of_length_ge (by omega)]

/-- The handed out blocks are consecutive unless events come at another height than the one after
the fetched blocks. -/
theorem consecutive_iff (hchain : Linked chain) (hheight : height < chain.length) :
    Consecutive feed.restored handed ↔
      handed.length ≤ feed.current - feed.restored ∨ InStep depth feed := by
  obtain ⟨n, hmap, hcursor, -⟩ := h.map_height hchain hheight
  have hlen : handed.length = feed.cursor - feed.restored + n := by
    rw [← length_map (fun b : ChainBlock => b.height), hmap, length_append,
      length_range', length_range']
  have hiff : Consecutive feed.restored handed ↔
      n = 0 ∨ feed.seen - depth + 1 = feed.restored + 1 + (feed.cursor - feed.restored) := by
    rw [Consecutive, hmap, hlen, ← range'_append_1, append_cancel_left_eq]
    simp
  rw [hiff, InStep]
  have hrestored := h.restored_le
  have hle := h.cursor_le
  rcases Nat.eq_zero_or_pos n with rfl | hpos
  · exact iff_of_true (.inl rfl) (.inl (by omega))
  · have hcur := hcursor (Nat.ne_of_gt hpos)
    omega

theorem length_eq (hchain : Linked chain)
    (hheight : height + 1 = chain.length) (hstep : InStep depth feed)
    (hcursor : feed.cursor = feed.current) (hinbox : feed.inbox = []) :
    handed.length = chain.length - 1 - depth - feed.restored := by
  obtain ⟨n, hmap, -, hn⟩ := h.map_height hchain (by omega)
  have hlen := congrArg length hmap
  have hseen := h.seen_le
  have hrestored := h.restored_le
  rw [length_map, length_append, length_range', length_range'] at hlen
  rw [hinbox] at hn
  rw [InStep] at hstep
  simp only [buriedBlocks, filter_nil, map_nil, length_nil] at hn
  omega

end Feeds

/-- **The start of a node.** In every interleaving of the steps of the node with arriving blocks and
their delivery to the client, in which no block arrives between the first count and the connection
and the contracts are not ahead of the second count: the handed out blocks are consecutive from the
restored height on, until an event of the client is handed out; and from then on exactly if the
client and the node were in step at the subscription. When they were, no buried block is left out
once everything is delivered. -/
theorem handed_consecutive_iff (env : Env) {chain : List ChainBlock} (hchain : Linked chain)
    (h : Run (fun s => s.step env) Quiet (init depth contracts chain) handed s) :
    ((∀ client feed, s.phase ≠ .subscribed client feed) → handed = []) ∧
      ∀ client feed, s.phase = .subscribed client feed →
        (Consecutive feed.restored handed ↔
          handed.length ≤ feed.current - feed.restored ∨ InStep depth feed) ∧
        (InStep depth feed → client.pending = [] → feed.inbox = [] → feed.cursor = feed.current →
          handed.length = s.blockCount - depth - feed.restored) := by
  have hsound := sound_of_run hchain h
  cases hsound with
  | start _ => exact ⟨fun _ => rfl, nofun⟩
  | counted _ _ _ => exact ⟨fun _ => rfl, nofun⟩
  | connected _ _ => exact ⟨fun _ => rfl, nofun⟩
  | recounted _ _ _ _ => exact ⟨fun _ => rfl, nofun⟩
  | @subscribed chain client height feed _ hlinked hclient hfeed =>
    have hlen := hclient.length_eq
    refine ⟨fun hne => absurd rfl (hne client feed), ?_⟩
    rintro client' feed' heq
    cases heq
    refine ⟨hfeed.consecutive_iff hlinked (by omega), fun hstep hpending hinbox hcursor => ?_⟩
    rw [hpending] at hlen
    exact hfeed.length_eq hlinked hlen hstep hcursor hinbox

private theorem linked_emptyBlocks (n : ℕ) :
    Linked ((List.range (n + 1)).map emptyBlock) where
  nonempty := by simp
  height_eq := by
    intro k b hb
    rw [List.getElem?_map] at hb
    obtain ⟨k', hk', rfl⟩ := Option.map_eq_some_iff.mp hb
    obtain ⟨_, rfl⟩ := List.getElem?_eq_some_iff.mp hk'
    simp [emptyBlock, chainBlock, Block.height]
  extends_eq := by
    intro k a b ha hb
    rw [List.getElem?_map] at ha hb
    obtain ⟨k', hk', rfl⟩ := Option.map_eq_some_iff.mp ha
    obtain ⟨k'', hk'', rfl⟩ := Option.map_eq_some_iff.mp hb
    obtain ⟨_, rfl⟩ := List.getElem?_eq_some_iff.mp hk'
    obtain ⟨_, rfl⟩ := List.getElem?_eq_some_iff.mp hk''
    simp [emptyBlock, chainBlock]

private def subscribedWith (p : ZmqStream → BlockFeed → Bool) : StartupPhase → Bool
  | .subscribed client feed => p client feed
  | _ => false

/-- The steps of a node that is not disturbed, whose contract has seen height 3 of a chain of height
5, and to which block 6 is delivered after the subscription. -/
theorem undisturbed_start :
    ∃ handed s client feed,
      Run (fun s => s.step (Linear.env fun _ => none)) Quiet
        (init 1 (contractAt 3) ((range 6).map emptyBlock)) handed s ∧
      s.phase = .subscribed client feed ∧ handed.length = 2 ∧ Consecutive feed.restored handed := by
  obtain ⟨s, handed, hrun, hp⟩ := exists_run_of_exec
    (fun s : Startup => s.step (Linear.env fun _ => none)) Quiet
    (init 1 (contractAt 3) ((range 6).map emptyBlock))
    [.readCount, .connect, .recount, .subscribe, .sync, .arrive (emptyBlock 6), .deliver,
      .take, .take]
    (fun s handed => subscribedWith (fun _ feed => decide (InStep 1 feed)) s.phase &&
      decide (handed.length = 2)) (by decide +kernel)
  cases hphase : s.phase with
  | subscribed client feed =>
    rw [hphase] at hp
    obtain ⟨hstep, hlen⟩ := (Bool.and_eq_true _ _).mp hp
    have hlinked := linked_emptyBlocks 5
    have hlaw := (handed_consecutive_iff _ hlinked hrun).2 client feed hphase
    exact ⟨handed, s, client, feed, hrun, hphase, of_decide_eq_true hlen,
      hlaw.1.mpr (.inr (of_decide_eq_true hstep))⟩
  | _ => simp [hphase, subscribedWith] at hp

/-- Three windows of the start, for a contract that has seen height 3 of a chain of height 5 and a
bury depth of 1. Block 6 arrives and is delivered between the second count and the subscription:
height 5 is skipped. Block 6 arrives before the second count and is delivered after the
subscription: height 5 is handed out twice. Block 6 arrives between the first count and the
connection: the client takes no block any more, and height 6 is never handed out. -/
theorem disturbed_starts :
    (∃ handed s,
      Run (fun s => s.step (Linear.env fun _ => none)) Extending
        (init 1 (contractAt 3) ((range 6).map emptyBlock)) handed s ∧
      handed.map (fun b => b.height) = [4, 6] ∧ ¬ Consecutive 3 handed) ∧
    (∃ handed s,
      Run (fun s => s.step (Linear.env fun _ => none)) Extending
        (init 1 (contractAt 3) ((range 6).map emptyBlock)) handed s ∧
      handed.map (fun b => b.height) = [4, 5, 5] ∧ ¬ Consecutive 3 handed) ∧
    ∃ handed s client feed,
      Run (fun s => s.step (Linear.env fun _ => none)) Extending
        (init 1 (contractAt 3) ((range 6).map emptyBlock)) handed s ∧
      s.phase = .subscribed client feed ∧ client.pending = [] ∧ feed.inbox = [] ∧
      handed.map (fun b => b.height) = [4, 5] ∧ s.blockCount = 7 := by
  refine ⟨?_, ?_, ?_⟩
  · exact exists_run_of_decide
      [.readCount, .connect, .recount, .arrive (emptyBlock 6), .deliver, .subscribe, .sync,
        .arrive (emptyBlock 7), .deliver, .take, .take] (by decide +kernel)
  · exact exists_run_of_decide
      [.readCount, .connect, .arrive (emptyBlock 6), .recount, .subscribe, .deliver, .sync,
        .sync, .take, .take] (by decide +kernel)
  · obtain ⟨s, handed, hrun, hp⟩ := exists_run_of_exec
      (fun s : Startup => s.step (Linear.env fun _ => none)) Extending
      (init 1 (contractAt 3) ((range 6).map emptyBlock))
      [.readCount, .arrive (emptyBlock 6), .connect, .recount, .subscribe, .sync, .sync,
        .arrive (emptyBlock 7), .deliver, .take]
      (fun s handed => subscribedWith (fun client feed => decide (client.pending = [] ∧
        feed.inbox = [] ∧ handed.map (fun b => b.height) = [4, 5] ∧ s.blockCount = 7)) s.phase)
      (by decide +kernel)
    cases hphase : s.phase with
    | subscribed client feed =>
      rw [hphase] at hp
      exact ⟨handed, s, client, feed, hrun, hphase, of_decide_eq_true hp⟩
    | _ => simp [hphase, subscribedWith] at hp

end Startup

end StrataBridge
