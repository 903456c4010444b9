import Mathlib.Tactic.Common
import Mathlib.Data.List.Nodup

/-!
# Burial under a window of recent blocks

A chain grows and shrinks at its tip. A block is buried when a fixed number of blocks have been
built on it for the first time. Someone who watches the chain through a window of its newest blocks
reports a block as buried when it falls out of the window, and as uncled when it is taken from the
tip. A block can leave a chain and come back, so what is reported on is a stay: one continuous
presence of a block.
-/

namespace Burial

variable {β : Type}

/-- One continuous presence of a block on a chain. The number tells the stays of one block
apart. -/
structure Stay (β : Type) where
  number : ℕ
  block : β
  deriving DecidableEq, Repr

structure Chain (β : Type) where
  stays : List (Stay β)
  next : ℕ
  deriving DecidableEq, Repr

namespace Chain

variable (c : Chain β)

def connect (b : β) : Chain β := ⟨⟨c.next, b⟩ :: c.stays, c.next + 1⟩

def disconnect : Chain β := ⟨c.stays.tail, c.next⟩

def ofBlocks : List β → Chain β
  | [] => ⟨[], 0⟩
  | b :: bs => (ofBlocks bs).connect b

def Deep (d : ℕ) (c : Chain β) (s : Stay β) : Prop := s ∈ c.stays.drop d

/-- A stay gets its `d`-th successor: at least `d` blocks stand on it now, and never did on the
chains before. -/
def FirstDeep (d : ℕ) (past : List (Chain β)) (c : Chain β) (s : Stay β) : Prop :=
  c.Deep d s ∧ ∀ c' ∈ past, ¬ c'.Deep d s

instance [DecidableEq β] (d : ℕ) (past : List (Chain β)) (c : Chain β) (s : Stay β) :
    Decidable (c.FirstDeep d past s) :=
  inferInstanceAs (Decidable (s ∈ c.stays.drop d ∧ ∀ c' ∈ past, ¬ s ∈ c'.stays.drop d))

structure Numbered (c : Chain β) : Prop where
  lt_next : ∀ s ∈ c.stays, s.number < c.next
  nodup : c.stays.Nodup

@[simp] theorem stays_connect (b : β) :
    (c.connect b).stays = ⟨c.next, b⟩ :: c.stays := rfl

@[simp] theorem stays_disconnect : c.disconnect.stays = c.stays.tail := rfl

theorem map_block_stays_ofBlocks (bs : List β) : (ofBlocks bs).stays.map Stay.block = bs := by
  induction bs with
  | nil => rfl
  | cons b bs ih => rw [ofBlocks, stays_connect, List.map_cons, ih]

theorem Numbered.connect {c : Chain β} (h : c.Numbered) (b : β) : (c.connect b).Numbered where
  lt_next := by
    intro s hs
    rcases List.mem_cons.mp hs with rfl | hs
    · exact Nat.lt_succ_self _
    · exact Nat.lt_succ_of_lt (h.lt_next s hs)
  nodup := by
    refine List.nodup_cons.mpr ⟨fun hmem => ?_, h.nodup⟩
    exact absurd (h.lt_next _ hmem) (Nat.lt_irrefl _)

theorem Numbered.disconnect {c : Chain β} (h : c.Numbered) : c.disconnect.Numbered where
  lt_next s hs := h.lt_next s (List.mem_of_mem_tail hs)
  nodup := h.nodup.tail

theorem numbered_ofBlocks (bs : List β) : (ofBlocks bs).Numbered := by
  induction bs with
  | nil => exact ⟨by simp [ofBlocks], by simp [ofBlocks]⟩
  | cons b bs ih => exact ih.connect b

theorem Numbered.deep_iff {c : Chain β} (h : c.Numbered) {d i : ℕ} {s : Stay β}
    (hs : c.stays[i]? = some s) : c.Deep d s ↔ d ≤ i := by
  obtain ⟨hi, rfl⟩ := List.getElem?_eq_some_iff.mp hs
  rw [Deep, List.mem_drop_iff_getElem]
  constructor
  · rintro ⟨j, hj, heq⟩
    have := (h.nodup.getElem_inj_iff).mp heq
    omega
  · intro hd
    exact ⟨i - d, by omega, by simp [Nat.add_sub_cancel' hd]⟩

theorem Deep.mem_of_append {d : ℕ} {c : Chain β} {s : Stay β} {window rest : List (Stay β)}
    (h : c.Deep d s) (hc : c.stays = window ++ rest) (hd : window.length ≤ d) : s ∈ rest := by
  rw [Deep, hc, List.drop_append, List.drop_eq_nil_of_le hd] at h
  exact List.mem_of_mem_drop h

end Chain

/-! ### Reports -/

structure Entry (β : Type) where
  before : Chain β
  after : Chain β
  buried : List β
  uncled : List β
  deriving DecidableEq, Repr

namespace Entry

/-- The stay that a report of a buried block is about: the one with exactly `d` blocks on it. -/
def buriedStay (d : ℕ) (e : Entry β) : Option (Stay β) :=
  match e.buried with
  | [] => none
  | _ :: _ => e.after.stays[d]?

/-- The stay that a report of an uncled block is about: the tip before the step. -/
def uncledStay (e : Entry β) : Option (Stay β) :=
  match e.uncled with
  | [] => none
  | _ :: _ => e.before.stays.head?

end Entry

/-- **The burial law.** The reports of a run of steps are about stays; a stay is reported as buried
exactly in the step in which it gets its `d`-th successor. Buried stays are reported in the order of
the chain, without a gap, none twice, and none that is ever reported as uncled. -/
structure Lawful (d : ℕ) (trace : List (Entry β)) : Prop where
  buried_eq : ∀ e ∈ trace, e.buried = (e.buriedStay d).toList.map Stay.block
  uncled_eq : ∀ e ∈ trace, e.uncled = e.uncledStay.toList.map Stay.block
  exactly : ∀ done e rest, trace = done ++ e :: rest → ∀ s,
    e.buriedStay d = some s ↔ e.after.FirstDeep d (e.before :: done.map Entry.before) s
  ordered : ∀ e ∈ trace.getLast?, (trace.filterMap (Entry.buriedStay d)).reverse <:+ e.after.stays
  once : (trace.filterMap (Entry.buriedStay d)).Nodup
  apart : ∀ e ∈ trace, ∀ e' ∈ trace, ∀ s, e.uncledStay = some s → e'.buriedStay d ≠ some s

/-- What is reported through a window of the newest blocks. The window starts as the whole chain;
connected blocks come into it, and when it holds more than `d` the oldest one falls out and is
reported as buried. Only blocks in the window are disconnected, and reported as uncled. -/
inductive History (d : ℕ) (c₀ : Chain β) :
    List (Entry β) → Chain β → List (Stay β) → List (Stay β) → Prop
  | nil : History d c₀ [] c₀ c₀.stays []
  | keep {trace c window buried} (h : History d c₀ trace c window buried) :
      History d c₀ (trace ++ [⟨c, c, [], []⟩]) c window buried
  | extend {trace c window buried} (b : β) (h : History d c₀ trace c window buried)
      (hlen : window.length < d) :
      History d c₀ (trace ++ [⟨c, c.connect b, [], []⟩]) (c.connect b) (⟨c.next, b⟩ :: window)
        buried
  | bury {trace c window buried window' s} (b : β) (h : History d c₀ trace c window buried)
      (hlen : window.length = d) (hs : ⟨c.next, b⟩ :: window = window' ++ [s]) :
      History d c₀ (trace ++ [⟨c, c.connect b, [s.block], []⟩]) (c.connect b) window'
        (buried ++ [s])
  | uncle {trace c window buried s} (h : History d c₀ trace c (s :: window) buried) :
      History d c₀ (trace ++ [⟨c, c.disconnect, [], [s.block]⟩]) c.disconnect window buried

namespace History

variable {d : ℕ} {c₀ c : Chain β} {trace : List (Entry β)} {window buried : List (Stay β)}

structure Splits (d : ℕ) (past : List (Chain β)) (c : Chain β) (window buried : List (Stay β)) :
    Prop where
  stays : c.stays = window ++ buried.reverse
  length_le : window.length ≤ d
  mem_buried : ∀ s, s ∈ buried ↔ ∃ c' ∈ c :: past, c'.Deep d s
  numbered : c.Numbered

namespace Splits

variable {past : List (Chain β)}

theorem ofBlocks {bs : List β} (h : bs.length ≤ d) :
    Splits d [] (Chain.ofBlocks bs) (Chain.ofBlocks bs).stays [] := by
  have hlen : (Chain.ofBlocks bs).stays.length ≤ d := by
    rw [← List.length_map Stay.block, Chain.map_block_stays_ofBlocks]
    exact h
  refine ⟨by simp, hlen, fun s => ?_, Chain.numbered_ofBlocks bs⟩
  simp [Chain.Deep, List.drop_eq_nil_of_le hlen]

variable (h : Splits d past c window buried)
include h

/-- A chain on which every deep stay is reported already has none that gets deep. -/
theorem not_firstDeep {c' : Chain β}
    (hc' : ∀ s, c'.Deep d s → s ∈ buried) (s : Stay β) : ¬ c'.FirstDeep d (c :: past) s := by
  rintro ⟨hdeep, hpast⟩
  obtain ⟨c'', hc'', hs⟩ := (h.mem_buried s).mp (hc' s hdeep)
  exact hpast c'' hc'' hs

theorem next {c' : Chain β} {window' : List (Stay β)}
    (hstays : c'.stays = window' ++ buried.reverse) (hlen : window'.length ≤ d)
    (hnum : c'.Numbered) : Splits d (c :: past) c' window' buried := by
  have hcover : ∀ s, c'.Deep d s → s ∈ buried := fun s hs =>
    List.mem_reverse.mp (hs.mem_of_append hstays hlen)
  refine ⟨hstays, hlen, fun s => ?_, hnum⟩
  rw [h.mem_buried s]
  constructor
  · rintro ⟨c'', hc'', hs⟩
    exact ⟨c'', List.mem_cons_of_mem _ hc'', hs⟩
  · rintro ⟨c'', hc'', hs⟩
    rcases List.mem_cons.mp hc'' with rfl | hc''
    · exact (h.mem_buried s).mp (hcover s hs)
    · exact ⟨c'', hc'', hs⟩

theorem bury (hlen : window.length = d) {b : β} {s : Stay β}
    {window' : List (Stay β)} (hs : ⟨c.next, b⟩ :: window = window' ++ [s]) :
    Splits d (c :: past) (c.connect b) window' (buried ++ [s]) ∧
      (c.connect b).stays[d]? = some s ∧
      ∀ s', (c.connect b).FirstDeep d (c :: past) s' ↔ s' = s := by
  have hlen' : window'.length = d := by
    have := congrArg List.length hs
    simp only [List.length_cons, List.length_append, List.length_nil] at this
    omega
  have hstays : (c.connect b).stays = window' ++ s :: buried.reverse := by
    rw [Chain.stays_connect, h.stays, ← List.cons_append, hs, List.append_assoc,
      List.singleton_append]
  have hnum := h.numbered.connect b
  have hdeep : ∀ s', (c.connect b).Deep d s' ↔ s' = s ∨ s' ∈ buried := by
    intro s'
    rw [Chain.Deep, hstays, ← hlen', List.drop_left, List.mem_cons, List.mem_reverse]
  have hfresh : s ∉ buried := by
    have hnodup := (List.nodup_append.mp (hstays ▸ hnum.nodup)).2.1
    exact fun hmem => (List.nodup_cons.mp hnodup).1 (List.mem_reverse.mpr hmem)
  refine ⟨⟨?_, Nat.le_of_eq hlen', fun s' => ?_, hnum⟩, ?_, fun s' => ?_⟩
  · rw [hstays, List.reverse_append, List.reverse_singleton, List.singleton_append]
  · rw [List.mem_append, List.mem_singleton, List.exists_mem_cons_iff, hdeep, ← h.mem_buried s']
    tauto
  · rw [hstays, List.getElem?_append_right (Nat.le_of_eq hlen'), hlen', Nat.sub_self]
    rfl
  · constructor
    · rintro ⟨hd, hpast⟩
      refine ((hdeep s').mp hd).resolve_right fun hmem => ?_
      obtain ⟨c', hc', hs'⟩ := (h.mem_buried s').mp hmem
      exact hpast c' hc' hs'
    · rintro rfl
      refine ⟨(hdeep s').mpr (.inl rfl), fun c' hc' hs' => ?_⟩
      exact hfresh ((h.mem_buried s').mpr ⟨c', hc', hs'⟩)

theorem congr_past {past' : List (Chain β)}
    (hpast : ∀ c', c' ∈ past ↔ c' ∈ past') : Splits d past' c window buried := by
  refine ⟨h.stays, h.length_le, fun s => ?_, h.numbered⟩
  rw [h.mem_buried s]
  simp [hpast]

end Splits

def Gone (c : Chain β) (s : Stay β) : Prop := s ∉ c.stays ∧ s.number < c.next

theorem Gone.connect {s : Stay β} (h : Gone c s) (b : β) : Gone (c.connect b) s := by
  refine ⟨fun hmem => ?_, Nat.lt_succ_of_lt h.2⟩
  rcases List.mem_cons.mp hmem with rfl | hmem
  · exact Nat.lt_irrefl _ h.2
  · exact h.1 hmem

theorem Gone.disconnect {s : Stay β} (h : Gone c s) : Gone c.disconnect s :=
  ⟨fun hmem => h.1 (List.mem_of_mem_tail hmem), h.2⟩

private structure Sound (d : ℕ) (trace : List (Entry β)) (c : Chain β)
    (window buried : List (Stay β)) : Prop where
  splits : Splits d (trace.map Entry.before) c window buried
  buried_eq : buried = trace.filterMap (Entry.buriedStay d)
  last : ∀ e ∈ trace.getLast?, e.after = c
  gone : ∀ e ∈ trace, ∀ s, e.uncledStay = some s → Gone c s
  reports : ∀ e ∈ trace, e.buried = (e.buriedStay d).toList.map Stay.block ∧
    e.uncled = e.uncledStay.toList.map Stay.block
  exactly : ∀ done e rest, trace = done ++ e :: rest → ∀ s,
    e.buriedStay d = some s ↔ e.after.FirstDeep d (e.before :: done.map Entry.before) s

private theorem Sound.snoc (h : Sound d trace c window buried) {e : Entry β}
    {window' buried' : List (Stay β)} (hbefore : e.before = c)
    (hsplits : Splits d (c :: trace.map Entry.before) e.after window' buried')
    (hburied : buried' = buried ++ (e.buriedStay d).toList)
    (hgone : ∀ s, Gone c s ∨ e.uncledStay = some s → Gone e.after s)
    (hreports : e.buried = (e.buriedStay d).toList.map Stay.block ∧
      e.uncled = e.uncledStay.toList.map Stay.block)
    (hexactly : ∀ s, e.buriedStay d = some s ↔
      e.after.FirstDeep d (c :: trace.map Entry.before) s) :
    Sound d (trace ++ [e]) e.after window' buried' where
  splits := hsplits.congr_past fun c' => by simp [hbefore, or_comm]
  buried_eq := by
    rw [hburied, h.buried_eq]
    cases hs : e.buriedStay d <;> simp [hs]
  last := by simp
  gone := by
    intro e' he' s hs
    rcases List.mem_append.mp he' with he' | he'
    · exact hgone s (.inl (h.gone e' he' s hs))
    · rw [List.mem_singleton.mp he'] at hs
      exact hgone s (.inr hs)
  reports := by
    intro e' he'
    rcases List.mem_append.mp he' with he' | he'
    · exact h.reports e' he'
    · rw [List.mem_singleton.mp he']
      exact hreports
  exactly := by
    intro done e' rest heq
    rcases List.eq_nil_or_concat rest with rfl | ⟨rest', x, rfl⟩
    · obtain ⟨rfl, he⟩ := List.append_inj' heq rfl
      obtain rfl := List.singleton_inj.mp he
      rw [hbefore]
      exact hexactly
    · rw [List.concat_eq_append, ← List.cons_append, ← List.append_assoc] at heq
      obtain ⟨rfl, -⟩ := List.append_inj' heq rfl
      exact h.exactly done e' rest' rfl

private theorem Sound.quiet (h : Sound d trace c window buried) {e : Entry β}
    {window' : List (Stay β)} (hbefore : e.before = c) (hburied : e.buried = [])
    (hstays : e.after.stays = window' ++ buried.reverse) (hlen : window'.length ≤ d)
    (hnum : e.after.Numbered) (hgone : ∀ s, Gone c s ∨ e.uncledStay = some s → Gone e.after s)
    (huncled : e.uncled = e.uncledStay.toList.map Stay.block) :
    Sound d (trace ++ [e]) e.after window' buried := by
  have hnone : e.buriedStay d = none := by rw [Entry.buriedStay, hburied]
  refine h.snoc hbefore (h.splits.next hstays hlen hnum) (by simp [hnone]) hgone
    ⟨by simp [hnone, hburied], huncled⟩ fun s => ?_
  refine iff_of_false (by simp [hnone]) (h.splits.not_firstDeep (fun s hd => ?_) s)
  exact List.mem_reverse.mp (hd.mem_of_append hstays hlen)

private theorem Sound.lawful (h : Sound d trace c window buried) : Lawful d trace where
  buried_eq e he := (h.reports e he).1
  uncled_eq e he := (h.reports e he).2
  exactly := h.exactly
  ordered := by
    intro e he
    rw [h.last e he, ← h.buried_eq, h.splits.stays]
    exact List.suffix_append _ _
  once := by
    rw [← h.buried_eq, ← List.nodup_reverse]
    exact (List.nodup_append.mp (h.splits.stays ▸ h.splits.numbered.nodup)).2.1
  apart := by
    intro e he e' he' s hs hs'
    refine (h.gone e he s hs).1 ?_
    have hmem : s ∈ buried := h.buried_eq ▸ List.mem_filterMap.mpr ⟨e', he', hs'⟩
    rw [h.splits.stays]
    exact List.mem_append_right _ (List.mem_reverse.mpr hmem)

variable {bs : List β}

variable (hbs : bs.length ≤ d)
include hbs

private theorem sound
    (h : History d (Chain.ofBlocks bs) trace c window buried) : Sound d trace c window buried := by
  induction h with
  | nil => exact ⟨Splits.ofBlocks hbs, rfl, by simp, by simp, by simp, by simp⟩
  | keep _ ih =>
    have hs := ih.splits
    refine ih.quiet rfl rfl hs.stays hs.length_le hs.numbered (fun s hgone => ?_) rfl
    exact hgone.resolve_right nofun
  | @extend _ c _ _ b _ hlen ih =>
    have hs := ih.splits
    refine ih.quiet rfl rfl (by rw [Chain.stays_connect, hs.stays]; rfl) hlen
      (hs.numbered.connect b) (fun s hgone => ?_) rfl
    exact (hgone.resolve_right nofun).connect b
  | @bury _ c _ _ _ s b _ hlen heq ih =>
    obtain ⟨hsplits, hget, hfirst⟩ := ih.splits.bury hlen heq
    have hstay : Entry.buriedStay d ⟨c, c.connect b, [s.block], []⟩ = some s := hget
    refine ih.snoc rfl hsplits (by rw [hstay]; rfl) (fun s hgone => ?_) ⟨by rw [hstay]; rfl, rfl⟩
      fun s' => ?_
    · exact (hgone.resolve_right nofun).connect b
    · rw [hstay, hfirst, Option.some.injEq]
      exact eq_comm
  | @uncle _ c window _ s _ ih =>
    have hs := ih.splits
    have hstay : Entry.uncledStay ⟨c, c.disconnect, [], [s.block]⟩ = some s := by
      rw [Entry.uncledStay, hs.stays]
      rfl
    refine ih.quiet rfl rfl (congrArg List.tail hs.stays) (Nat.le_of_succ_le hs.length_le)
      hs.numbered.disconnect (fun s' hgone => ?_) (by rw [hstay]; rfl)
    rcases hgone with hgone | huncled
    · exact hgone.disconnect
    · obtain rfl := Option.some.inj (hstay.symm.trans huncled)
      refine ⟨fun hmem => ?_, hs.numbered.lt_next s (by simp [hs.stays])⟩
      have hnodup := hs.numbered.nodup
      rw [hs.stays] at hnodup
      rw [Chain.stays_disconnect, hs.stays] at hmem
      exact (List.nodup_cons.mp hnodup).1 hmem

/-- **Reports through a window are lawful.** -/
theorem lawful (h : History d (Chain.ofBlocks bs) trace c window buried) :
    Lawful d trace :=
  (h.sound hbs).lawful

/-- The window is the top of the chain, and what was reported as buried lies below. -/
theorem stays_eq (h : History d (Chain.ofBlocks bs) trace c window buried) :
    c.stays = window ++ buried.reverse ∧ window.length ≤ d :=
  ⟨(h.sound hbs).splits.stays, (h.sound hbs).splits.length_le⟩

theorem mem_buriedStays (h : History d (Chain.ofBlocks bs) trace c window buried) (s : Stay β) :
    s ∈ trace.filterMap (Entry.buriedStay d) ↔ ∃ c' ∈ c :: trace.map Entry.before, c'.Deep d s := by
  rw [← (h.sound hbs).buried_eq]
  exact (h.sound hbs).splits.mem_buried s

theorem numbered (h : History d (Chain.ofBlocks bs) trace c window buried) :
    c.Numbered :=
  (h.sound hbs).splits.numbered

end History

end Burial
