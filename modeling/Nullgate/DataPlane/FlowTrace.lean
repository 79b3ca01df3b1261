/-
  File:      Nullgate/DataPlane/FlowTrace.lean
  Subject:   RUNS OF THE FLOW TABLE (`conntrack.rs`): what admits a packet, what a sweep changes.

  * `FlowOp`, `verdicts` -- a trace of the table's calls, and the answers of its lookups;
  * `stamps`: when the packets of a flow went out since its last SYN, read off the trace;
  * `flows_eq_or_none`: the entry of a flow is its newest stamp, or a sweep has taken it;
  * `tcp_admission_sound`: an admitted TCP packet answers a SYN of this device, and a packet
    within the TTL, whatever is swept and cleared in between;
  * `sweep_invisible_iff`: sweeps change no answer exactly when no flow that is answered has
    paused past the TTL since its last SYN. Behind such a pause a packet that is no SYN
    refreshes an entry a lookup takes for expired, and brings back none that is swept.
-/
import Nullgate.DataPlane.Conntrack
import Nullgate.Lib.Fold

namespace Nullgate

open Nullgate.Lib

/-! ## 1. Traces -/

/-- A call of the table, with the coarse clock it is given. -/
inductive FlowOp where
  | record (pkt : List UInt8) (now : UInt64)
  | allows (pkt : List UInt8) (now : UInt64)
  | sweep (now : UInt64)
  | clear
  deriving DecidableEq

namespace FlowOp

def step (ct : Conntrack) : FlowOp → Conntrack
  | record pkt now => ct.recordOutbound pkt now
  | allows _ _ => ct
  | sweep now => ct.sweep now
  | clear => ct.clear

/-- What the call answers, if it is a lookup. -/
def verdict (ct : Conntrack) : FlowOp → Option Bool
  | allows pkt now => some (ct.allowsInbound pkt now)
  | _ => none

def time : FlowOp → Option UInt64
  | record _ now | allows _ now | sweep now => some now
  | clear => none

def isSweep : FlowOp → Bool
  | sweep _ => true
  | _ => false

end FlowOp

/-- The table behind a trace. -/
abbrev flowsAfter (ops : List FlowOp) : Conntrack := run FlowOp.step {} ops

/-- **The answers of the lookups of a trace**, in order. -/
def verdicts (ct : Conntrack) : List FlowOp → List Bool
  | [] => []
  | op :: ops => (op.verdict ct).toList ++ verdicts (op.step ct) ops

/-- The trace without its sweeps. -/
def unswept (ops : List FlowOp) : List FlowOp := ops.filter fun op => !op.isSweep

/-- The clock never goes back. -/
def Timed (ops : List FlowOp) : Prop := (ops.filterMap FlowOp.time).Pairwise (· ≤ ·)

instance decidableTimed (ops : List FlowOp) : Decidable (Timed ops) :=
  inferInstanceAs (Decidable (List.Pairwise _ _))

/-! ## 2. When the packets of a flow went out -/

variable {k : FlowKey} {ops pre post : List FlowOp} {op : FlowOp} {t : UInt64}

/-- What a call makes of the times at which packets of `k` went out since its last opening. -/
def stampsStep (k : FlowKey) (stamps : List UInt64) : FlowOp → List UInt64
  | .record pkt now =>
    if Opens pkt k then [now]
    else if flowKey pkt = some k ∧ stamps ≠ [] then now :: stamps
    else stamps
  | .allows _ _ | .sweep _ => stamps
  | .clear => []

/-- **The times of the packets of `k` since its last opening**, for TCP its last SYN, newest
    first. -/
def stamps (k : FlowKey) (ops : List FlowOp) : List UInt64 := run (stampsStep k) [] ops

@[simp] theorem stamps_snoc : stamps k (ops ++ [op]) = stampsStep k (stamps k ops) op := by
  unfold stamps
  rw [run_append, run_cons, run_nil]

theorem flowsAfter_snoc : flowsAfter (ops ++ [op]) = op.step (flowsAfter ops) := by
  unfold flowsAfter
  rw [run_append, run_cons, run_nil]

/-- Sweeps are not among what a flow is stamped by. -/
theorem stamps_unswept (k : FlowKey) (ops : List FlowOp) :
    stamps k (unswept ops) = stamps k ops := by
  unfold stamps unswept
  refine (run_filter_of_inert _ fun pre op post _ hop => ?_).symm
  cases op with
  | sweep now => rfl
  | _ => cases hop

/-- A packet of `k` that went out at `t`, and what it satisfies, since the last clear. -/
def Sent (ops : List FlowOp) (k : FlowKey) (Q : List UInt8 → UInt64 → Prop) : Prop :=
  ∃ pre pkt t post, ops = pre ++ .record pkt t :: post ∧ .clear ∉ post ∧
    flowKey pkt = some k ∧ Q pkt t

theorem Sent.snoc {Q : List UInt8 → UInt64 → Prop} (h : Sent ops k Q) (hop : op ≠ .clear) :
    Sent (ops ++ [op]) k Q := by
  obtain ⟨pre, pkt, t, post, hops, hclear, hk, hQ⟩ := h
  refine ⟨pre, pkt, t, post ++ [op], by rw [hops, List.append_assoc]; rfl, ?_, hk, hQ⟩
  rw [List.mem_append, List.mem_singleton]
  exact fun hm => hm.elim hclear fun he => hop he.symm

/-- **Behind a stamp stand a packet that opened the flow, and the one that was stamped.** -/
theorem sent_of_stamps (ops : List FlowOp) (h : (stamps k ops).head? = some t) :
    Sent ops k (fun pkt _ => Opens pkt k) ∧ Sent ops k (fun _ t' => t' = t) := by
  induction ops using List.reverseRecOn generalizing t with
  | nil => cases h
  | append_singleton ops op ih =>
    rw [stamps_snoc] at h
    cases op with
    | record pkt now =>
      unfold stampsStep at h
      dsimp only at h
      split at h
      · rename_i hopen
        obtain rfl := Option.some.inj h
        exact ⟨⟨ops, pkt, now, [], rfl, List.not_mem_nil, hopen.1, hopen⟩,
          ⟨ops, pkt, now, [], rfl, List.not_mem_nil, hopen.1, rfl⟩⟩
      · split at h
        · rename_i hk
          obtain rfl := Option.some.inj h
          obtain ⟨t', ht'⟩ := Option.isSome_iff_exists.mp (List.isSome_head?.mpr hk.2)
          exact ⟨(ih ht').1.snoc nofun, ⟨ops, pkt, now, [], rfl, List.not_mem_nil, hk.1, rfl⟩⟩
        · exact ⟨(ih h).1.snoc nofun, (ih h).2.snoc nofun⟩
    | allows pkt now => exact ⟨(ih h).1.snoc nofun, (ih h).2.snoc nofun⟩
    | sweep now => exact ⟨(ih h).1.snoc nofun, (ih h).2.snoc nofun⟩
    | clear => cases h

/-- **What a packet makes of the entry of a flow and of its stamps**: it opens the flow, or it
    stamps it and refreshes the entry if there is one, or it is no packet of a flow that is
    open. -/
theorem record_cases {ct : Conntrack} {l : List UInt64} (pkt : List UInt8) (now : UInt64)
    (h : ct.flows k = l.head? ∨ ct.flows k = none) :
    (stampsStep k l (.record pkt now) = [now] ∧
      (ct.recordOutbound pkt now).flows k = some now) ∨
    (stampsStep k l (.record pkt now) = now :: l ∧ l ≠ [] ∧
      (ct.recordOutbound pkt now).flows k = if (ct.flows k).isSome then some now else none) ∨
    (stampsStep k l (.record pkt now) = l ∧
      (ct.recordOutbound pkt now).flows k = ct.flows k) := by
  rw [ct.flows_recordOutbound]
  unfold stampsStep
  dsimp only
  by_cases hopen : Opens pkt k
  · exact Or.inl ⟨if_pos hopen, if_pos ⟨hopen.1, Or.inl hopen⟩⟩
  rw [if_neg hopen]
  by_cases hk : flowKey pkt = some k
  · by_cases hl : l = []
    · -- no SYN has opened the flow: it has no entry to refresh
      subst hl
      have hnone : ct.flows k = none := h.elim id id
      exact Or.inr (Or.inr ⟨by simp, by simp [hopen, hnone]⟩)
    · refine Or.inr (Or.inl ⟨if_pos ⟨hk, hl⟩, hl, ?_⟩)
      cases hf : ct.flows k <;> simp [hk, hopen]
  · exact Or.inr (Or.inr ⟨if_neg fun h' => hk h'.1, if_neg fun h' => hk h'.1⟩)

/-- A sweep takes an entry, or leaves it. -/
theorem sweep_cases (ct : Conntrack) (k : FlowKey) (now : UInt64) :
    (∃ seen, ct.flows k = some seen ∧ alive now seen = false ∧ (ct.sweep now).flows k = none) ∨
      (∀ seen ∈ ct.flows k, alive now seen = true) ∧ (ct.sweep now).flows k = ct.flows k := by
  rw [Conntrack.flows_sweep]
  cases hf : ct.flows k with
  | none => exact Or.inr ⟨nofun, rfl⟩
  | some seen =>
    cases ha : alive now seen with
    | false => exact Or.inl ⟨seen, rfl, ha, by simp [ha]⟩
    | true =>
      refine Or.inr ⟨fun seen' h => ?_, by simp [ha]⟩
      rwa [← Option.some.inj h]

/-- **The entry of a flow is its newest stamp, or there is none.** -/
theorem flows_eq_or_none (k : FlowKey) (ops : List FlowOp) :
    (flowsAfter ops).flows k = (stamps k ops).head? ∨ (flowsAfter ops).flows k = none := by
  induction ops using List.reverseRecOn with
  | nil => exact Or.inl rfl
  | append_singleton ops op ih =>
    rw [stamps_snoc, flowsAfter_snoc]
    cases op with
    | record pkt now =>
      show ((flowsAfter ops).recordOutbound pkt now).flows k = _ ∨
        ((flowsAfter ops).recordOutbound pkt now).flows k = none
      rcases record_cases pkt now ih with ⟨hs, hf⟩ | ⟨hs, -, hf⟩ | ⟨hs, hf⟩
      · exact Or.inl (by rw [hs, hf]; rfl)
      · rw [hs, hf]
        split
        · exact Or.inl rfl
        · exact Or.inr rfl
      · rwa [hs, hf]
    | allows pkt now => exact ih
    | sweep now =>
      show ((flowsAfter ops).sweep now).flows k = (stamps k ops).head? ∨
        ((flowsAfter ops).sweep now).flows k = none
      rcases sweep_cases (flowsAfter ops) k now with ⟨seen, -, -, hf⟩ | ⟨-, hf⟩
      · exact Or.inr hf
      · rwa [hf]
    | clear => exact Or.inl rfl

/-! ## 3. What admits a packet -/

/-- An admitted packet is the reverse of a flow that is stamped within the TTL. -/
theorem stamped_of_allows {pkt : List UInt8} (hk : flowKey pkt = some k)
    (h : (flowsAfter ops).allowsInbound pkt t = true) :
    ∃ seen, (stamps k.reversed ops).head? = some seen ∧ alive t seen = true := by
  obtain ⟨k', seen, hk', hseen, halive⟩ := (Conntrack.allowsInbound_iff _).mp h
  obtain rfl := Option.some.inj (hk.symm.trans hk')
  rcases flows_eq_or_none k.reversed ops with hf | hf
  · exact ⟨seen, by rw [← hf, hseen], halive⟩
  · rw [hf] at hseen
    cases hseen

/-- **Soundness of the flow table for TCP**, over every trace, with sweeps and clears anywhere:
    a TCP packet that is admitted at `t` is the reverse of a flow of which this device has
    sent, since the last clear, a packet with SYN set and ACK clear, and one not more than
    120 s before `t`. Where it has sent no such SYN, nothing of the flow is admitted. -/
theorem tcp_admission_sound (ops : List FlowOp) (pkt : List UInt8) (t : UInt64) {k : FlowKey}
    (hk : flowKey pkt = some k) (htcp : k.proto = 6) :
    ((flowsAfter ops).allowsInbound pkt t = true →
      Sent ops k.reversed (fun syn _ => isTcpInitiation syn = true) ∧
      Sent ops k.reversed (fun _ seen => t.toNat ≤ seen.toNat + 120000)) ∧
    ((∀ pre syn t' post, ops = pre ++ .record syn t' :: post → .clear ∉ post →
        flowKey syn = some k.reversed → isTcpInitiation syn = false) →
      (flowsAfter ops).allowsInbound pkt t = false) := by
  have hsound : (flowsAfter ops).allowsInbound pkt t = true →
      Sent ops k.reversed (fun syn _ => isTcpInitiation syn = true) ∧
      Sent ops k.reversed (fun _ seen => t.toNat ≤ seen.toNat + 120000) := by
    intro h
    obtain ⟨seen, hseen, halive⟩ := stamped_of_allows hk h
    obtain ⟨⟨pre, syn, t₀, post, hops, hclear, hsyn, hopens⟩,
      pre', out, t₁, post', hops', hclear', hout, rfl⟩ := sent_of_stamps ops hseen
    exact ⟨⟨pre, syn, t₀, post, hops, hclear, hsyn, hopens.2 htcp⟩,
      pre', out, t₁, post', hops', hclear', hout, alive_iff.mp halive⟩
  refine ⟨hsound, fun hnone => ?_⟩
  rw [← Bool.not_eq_true]
  intro h
  obtain ⟨⟨pre, syn, t₀, post, hops, hclear, hsyn, hinit⟩, -⟩ := hsound h
  rw [hnone pre syn t₀ post hops hclear hsyn] at hinit
  cases hinit

/-! ## 4. What a sweep changes -/

/-- **The flow has paused past the TTL since its last opening**: two stamps that follow each
    other lie further apart. -/
def Paused (stamps : List UInt64) : Prop :=
  ¬ stamps.IsChain fun newer older => alive newer older = true

instance decidablePaused (stamps : List UInt64) : Decidable (Paused stamps) :=
  inferInstanceAs (Decidable (¬ List.IsChain _ _))

/-- At `now` the entry of the flow may have been swept: its newest stamp is idle past the TTL,
    or an older one was. -/
def Lapsed (now : UInt64) (stamps : List UInt64) : Prop :=
  (∃ newest, stamps.head? = some newest ∧ alive now newest = false) ∨ Paused stamps

/-- No call of the trace is later than `now`. -/
def Reached (ops : List FlowOp) (now : UInt64) : Prop :=
  ∀ op ∈ ops, ∀ t ∈ op.time, t ≤ now

theorem reached_snoc {now : UInt64} :
    Reached (ops ++ [op]) now ↔ Reached ops now ∧ ∀ t ∈ op.time, t ≤ now := by
  unfold Reached
  simp only [List.mem_append, List.mem_singleton, or_imp, forall_and, forall_eq]

theorem timed_snoc : Timed (ops ++ [op]) ↔ Timed ops ∧ ∀ t ∈ op.time, Reached ops t := by
  unfold Timed Reached
  rw [List.filterMap_append, List.pairwise_append]
  cases ht : op.time with
  | none => simp [ht]
  | some t =>
    simp only [List.filterMap_cons, ht, List.filterMap_nil, List.pairwise_singleton, true_and,
      List.mem_filterMap, List.mem_singleton, forall_eq, Option.mem_def, Option.some_inj,
      forall_eq']
    refine and_congr_right fun _ => ⟨fun h o ho t' ht' => h t' ⟨o, ho, ht'⟩, ?_⟩
    intro h t' h'
    obtain ⟨o, ho, ht'⟩ := h'
    exact h o ho t' ht'

theorem Lapsed.mono {now now' : UInt64} {l : List UInt64} (h : Lapsed now l) (hle : now ≤ now') :
    Lapsed now' l := by
  refine h.imp_left fun h' => ?_
  obtain ⟨newest, hhead, hdead⟩ := h'
  refine ⟨newest, hhead, ?_⟩
  rw [← Bool.not_eq_true, alive_iff] at hdead ⊢
  have := UInt64.le_iff_toNat_le.mp hle
  omega

/-- A flow that goes on behind a pause has paused. -/
theorem Lapsed.cons {now : UInt64} {l : List UInt64} (h : Lapsed now l) : Paused (now :: l) := by
  intro hchain
  rcases h with ⟨newest, hhead, hdead⟩ | hpaused
  · obtain ⟨l', rfl⟩ : ∃ l', l = newest :: l' := by
      cases l with
      | nil => cases hhead
      | cons x l' => exact ⟨l', by rw [← Option.some.inj hhead]⟩
    rw [List.isChain_cons_cons, hdead] at hchain
    cases hchain.1
  · exact hpaused (List.IsChain.of_cons hchain)

theorem not_paused_singleton (now : UInt64) : ¬ Paused [now] := fun h =>
  h (List.IsChain.singleton now)

/-- **The entry of a flow is its newest stamp, or the flow has lapsed and has none.** -/
theorem flows_eq_or_lapsed (k : FlowKey) {ops : List FlowOp} {now : UInt64} (htimed : Timed ops)
    (hnow : Reached ops now) :
    (flowsAfter ops).flows k = (stamps k ops).head? ∨
      (flowsAfter ops).flows k = none ∧ Lapsed now (stamps k ops) := by
  induction ops using List.reverseRecOn generalizing now with
  | nil => exact Or.inl rfl
  | append_singleton ops op ih =>
    obtain ⟨hbefore, hop⟩ := timed_snoc.mp htimed
    obtain ⟨hreached, htime⟩ := reached_snoc.mp hnow
    rw [stamps_snoc, flowsAfter_snoc]
    cases op with
    | record pkt t =>
      have hle : t ≤ now := htime t rfl
      show ((flowsAfter ops).recordOutbound pkt t).flows k = _ ∨
        ((flowsAfter ops).recordOutbound pkt t).flows k = none ∧ _
      have ih := ih hbefore (hop t rfl)
      rcases record_cases pkt t (flows_eq_or_none k ops) with ⟨hs, hf⟩ | ⟨hs, hl, hf⟩ | ⟨hs, hf⟩
      · exact Or.inl (by rw [hs, hf]; rfl)
      · rw [hs, hf]
        rcases ih with ih | ⟨hnone, hlapsed⟩
        · refine Or.inl ?_
          rw [ih, if_pos (List.isSome_head?.mpr hl)]
          rfl
        · -- a packet that is no SYN brings back no entry, and the pause stays on record
          refine Or.inr ⟨?_, Or.inr hlapsed.cons⟩
          rw [hnone]
          rfl
      · rw [hs, hf]
        exact ih.imp_right fun h => ⟨h.1, h.2.mono hle⟩
    | allows pkt t => exact ih hbefore hreached
    | sweep t =>
      have hle : t ≤ now := htime t rfl
      show ((flowsAfter ops).sweep t).flows k = (stamps k ops).head? ∨
        ((flowsAfter ops).sweep t).flows k = none ∧ Lapsed now (stamps k ops)
      have ih := ih hbefore (hop t rfl)
      rcases sweep_cases (flowsAfter ops) k t with ⟨seen, hseen, hdead, hf⟩ | ⟨-, hf⟩
      · rcases ih with ih | ⟨hnone, -⟩
        · have hlapsed : Lapsed t (stamps k ops) := Or.inl ⟨seen, by rw [← ih, hseen], hdead⟩
          exact Or.inr ⟨hf, hlapsed.mono hle⟩
        · rw [hnone] at hseen
          cases hseen
      · rw [hf]
        exact ih.imp_right fun h => ⟨h.1, h.2.mono hle⟩
    | clear => exact Or.inl rfl

/-- Without sweeps every entry is there. -/
theorem flows_eq_of_unswept (k : FlowKey) {ops : List FlowOp}
    (h : ∀ op ∈ ops, op.isSweep = false) :
    (flowsAfter ops).flows k = (stamps k ops).head? := by
  induction ops using List.reverseRecOn with
  | nil => rfl
  | append_singleton ops op ih =>
    have ih := ih fun o ho => h o (List.mem_append_left _ ho)
    rw [stamps_snoc, flowsAfter_snoc]
    cases op with
    | record pkt t =>
      show ((flowsAfter ops).recordOutbound pkt t).flows k = _
      rcases record_cases pkt t (Or.inl ih) with ⟨hs, hf⟩ | ⟨hs, hl, hf⟩ | ⟨hs, hf⟩
      · rw [hs, hf]
        rfl
      · rw [hs, hf, ih, if_pos (List.isSome_head?.mpr hl)]
        rfl
      · rw [hs, hf, ih]
    | allows pkt t => exact ih
    | sweep t => exact absurd (h (.sweep t) (by simp)) nofun
    | clear => rfl

/-! ## 5. The traces without sweeps, and with a sweep before every call -/

/-- A sweep before every call. -/
def everSwept (ops : List FlowOp) : List FlowOp :=
  ops.flatMap fun op => (op.time.map .sweep).toList ++ [op]

theorem everSwept_snoc :
    everSwept (ops ++ [op]) = everSwept ops ++ ((op.time.map .sweep).toList ++ [op]) := by
  simp [everSwept]

theorem unswept_everSwept (ops : List FlowOp) : unswept (everSwept ops) = unswept ops := by
  induction ops with
  | nil => rfl
  | cons op ops ih =>
    have hcons : everSwept (op :: ops) = (op.time.map .sweep).toList ++ op :: everSwept ops := by
      simp [everSwept]
    unfold unswept at ih ⊢
    rw [hcons, List.filter_append, List.filter_cons, List.filter_cons, ih]
    cases op <;> rfl

theorem reached_everSwept {now : UInt64} (h : Reached ops now) : Reached (everSwept ops) now := by
  intro op hop t ht
  obtain ⟨o, ho, hmem⟩ := List.mem_flatMap.mp hop
  rcases List.mem_append.mp hmem with hmem | hmem
  · rw [Option.mem_toList] at hmem
    obtain ⟨t', ht', rfl⟩ := Option.map_eq_some_iff.mp hmem
    obtain rfl := Option.some.inj ht
    exact h o ho _ ht'
  · obtain rfl := List.mem_singleton.mp hmem
    exact h _ ho t ht

theorem timed_everSwept {ops : List FlowOp} (h : Timed ops) : Timed (everSwept ops) := by
  induction ops using List.reverseRecOn with
  | nil => exact h
  | append_singleton ops op ih =>
    obtain ⟨htimed, hop⟩ := timed_snoc.mp h
    rw [everSwept_snoc, ← List.append_assoc, timed_snoc]
    cases ht : op.time with
    | none => exact ⟨by simpa using ih htimed, nofun⟩
    | some t =>
      have hreached := reached_everSwept (hop t ht)
      refine ⟨timed_snoc.mpr ⟨ih htimed, fun t' ht' => ?_⟩, fun t' ht' => ?_⟩
      · obtain rfl := Option.some.inj ht'
        exact hreached
      · obtain rfl := Option.some.inj ht'
        intro o ho t' ht'
        rcases List.mem_append.mp ho with ho | ho
        · exact hreached o ho t' ht'
        · obtain rfl := List.mem_singleton.mp ho
          obtain rfl := Option.some.inj ht'
          exact le_refl _

/-- Swept and then refreshed, a flow that has paused keeps no entry. -/
theorem record_of_paused {ct : Conntrack} {l : List UInt64} {pkt : List UInt8}
    (hentry : ct.flows k = l.head? ∨ ct.flows k = none) (hnone : Paused l → ct.flows k = none)
    (h : Paused (stampsStep k l (.record pkt t))) :
    ((ct.sweep t).recordOutbound pkt t).flows k = none := by
  have hswept : (ct.sweep t).flows k = l.head? ∨ (ct.sweep t).flows k = none := by
    rcases sweep_cases ct k t with ⟨seen, -, -, hf⟩ | ⟨-, hf⟩
    · exact Or.inr hf
    · rwa [hf]
  have hgone (hp : Paused l) : (ct.sweep t).flows k = none := by
    rw [Conntrack.flows_sweep, hnone hp]
    rfl
  rcases record_cases pkt t hswept with ⟨hs, -⟩ | ⟨hs, hl, hf⟩ | ⟨hs, hf⟩
  · rw [hs] at h
    exact absurd h (not_paused_singleton t)
  · rw [hs] at h
    rw [hf, if_neg]
    -- an entry that outlives the sweep is alive, and its flow had not paused before
    rcases sweep_cases ct k t with ⟨seen, -, -, hf'⟩ | ⟨halive, hf'⟩
    · simp [hf']
    · intro hsome
      obtain ⟨seen, hseen⟩ := Option.isSome_iff_exists.mp hsome
      have hhead : l.head? = some seen := by
        rcases hswept with he | he
        · rw [← he, hseen]
        · rw [he] at hseen
          cases hseen
      obtain ⟨l', rfl⟩ := List.head?_eq_some_iff.mp hhead
      refine h (List.isChain_cons_cons.mpr ⟨?_, not_not.mp fun hp => ?_⟩)
      · exact halive seen (by rw [← hf', hseen]; rfl)
      · rw [hgone hp] at hseen
        cases hseen
  · rw [hs] at h
    rw [hf, hgone h]

/-- **Swept before every call, a flow that has paused has no entry.** -/
theorem flows_of_paused {ops : List FlowOp} (h : Paused (stamps k ops)) :
    (flowsAfter (everSwept ops)).flows k = none := by
  induction ops using List.reverseRecOn with
  | nil => exact absurd List.IsChain.nil h
  | append_singleton ops op ih =>
    have hentry := flows_eq_or_none k (everSwept ops)
    rw [← stamps_unswept, unswept_everSwept, stamps_unswept] at hentry
    rw [stamps_snoc] at h
    have hsplit (t : UInt64) : flowsAfter (everSwept ops ++ ([.sweep t] ++ [op])) =
        op.step ((flowsAfter (everSwept ops)).sweep t) := by
      rw [← List.append_assoc, flowsAfter_snoc, flowsAfter_snoc]
      rfl
    rw [everSwept_snoc]
    cases op with
    | record pkt t =>
      show (flowsAfter (everSwept ops ++ ([.sweep t] ++ [.record pkt t]))).flows k = none
      rw [hsplit]
      exact record_of_paused hentry ih h
    | allows pkt t =>
      show (flowsAfter (everSwept ops ++ ([.sweep t] ++ [.allows pkt t]))).flows k = none
      rw [hsplit]
      show ((flowsAfter (everSwept ops)).flows k).filter (alive t) = none
      rw [ih h]
      rfl
    | sweep t =>
      show (flowsAfter (everSwept ops ++ ([.sweep t] ++ [.sweep t]))).flows k = none
      rw [hsplit]
      show (((flowsAfter (everSwept ops)).flows k).filter (alive t)).filter (alive t) = none
      rw [ih h]
      rfl
    | clear => exact absurd List.IsChain.nil h

/-! ## 6. When sweeps are invisible -/

theorem verdicts_append (ct : Conntrack) (ops ops' : List FlowOp) :
    verdicts ct (ops ++ ops') = verdicts ct ops ++ verdicts (run FlowOp.step ct ops) ops' := by
  induction ops generalizing ct with
  | nil => rfl
  | cons op ops ih => rw [List.cons_append, verdicts, verdicts, ih, List.append_assoc, run_cons]

theorem verdicts_snoc (ops : List FlowOp) (op : FlowOp) :
    verdicts {} (ops ++ [op]) = verdicts {} ops ++ (op.verdict (flowsAfter ops)).toList := by
  rw [verdicts_append]
  simp [verdicts]

/-- **The packet meets no flow that has paused**: where this device last sent a packet of the
    reversed flow within the TTL, no two of them since the last opening lie further apart. -/
def MeetsUnpaused (pre : List FlowOp) (pkt : List UInt8) (t : UInt64) : Prop :=
  ∀ k ∈ flowKey pkt, ∀ newest ∈ (stamps k.reversed pre).head?, alive t newest = true →
    ¬ Paused (stamps k.reversed pre)

/-- Every lookup of the trace meets no flow that has paused. -/
def Unpaused (ops : List FlowOp) : Prop :=
  ∀ pre pkt t post, ops = pre ++ .allows pkt t :: post → MeetsUnpaused pre pkt t

theorem unpaused_snoc :
    Unpaused (ops ++ [op]) ↔
      Unpaused ops ∧ ∀ pkt t, op = .allows pkt t → MeetsUnpaused ops pkt t := by
  constructor
  · intro h
    refine ⟨fun pre pkt t post hops => h pre pkt t (post ++ [op]) ?_, fun pkt t hop => ?_⟩
    · rw [hops, List.append_assoc, List.cons_append]
    · exact h ops pkt t [] (by rw [hop])
  · intro h pre pkt t post hops
    rcases split_snoc hops with ⟨rfl, hop, -⟩ | ⟨post', -, hops'⟩
    · exact h.2 pkt t hop
    · exact h.1 pre pkt t post' hops'

theorem allowsInbound_eq (ct : Conntrack) (pkt : List UInt8) (t : UInt64) :
    ct.allowsInbound pkt t = (flowKey pkt).any fun k => (ct.flows k.reversed).any (alive t) := by
  unfold Conntrack.allowsInbound
  cases hk : flowKey pkt with
  | none => rfl
  | some k => cases hf : ct.flows k.reversed <;> simp [hf]

/-- **What a lookup answers that meets no flow that has paused**: whether the newest stamp is
    alive, whatever has been swept. -/
theorem allowsInbound_of_meetsUnpaused {pkt : List UInt8} (htimed : Timed (ops ++ [.allows pkt t]))
    (h : MeetsUnpaused ops pkt t) :
    (flowsAfter ops).allowsInbound pkt t =
      (flowKey pkt).any fun k => (stamps k.reversed ops).head?.any (alive t) := by
  obtain ⟨hbefore, hreached⟩ := timed_snoc.mp htimed
  rw [allowsInbound_eq]
  cases hk : flowKey pkt with
  | none => rfl
  | some k =>
    rw [Option.any_some, Option.any_some]
    rcases flows_eq_or_lapsed k.reversed hbefore (hreached t rfl) with hf | ⟨hf, hlapsed⟩
    · rw [hf]
    · -- the entry is gone: its newest stamp is idle past the TTL, for the flow has not paused
      rw [hf]
      cases hs : (stamps k.reversed ops).head? with
      | none => rfl
      | some newest =>
        cases ha : alive t newest with
        | false => exact ha.symm
        | true =>
          rcases hlapsed with ⟨newest', hs', hdead⟩ | hpaused
          · rw [hs] at hs'
            obtain rfl := Option.some.inj hs'
            rw [ha] at hdead
            cases hdead
          · exact absurd hpaused (h k hk newest hs ha)

theorem timed_unswept {ops : List FlowOp} (h : Timed ops) : Timed (unswept ops) :=
  h.sublist (List.filter_sublist.filterMap _)

theorem unswept_snoc (hop : op.isSweep = false) :
    unswept (ops ++ [op]) = unswept ops ++ [op] := by
  unfold unswept
  rw [List.filter_append, List.filter_cons_of_pos (by simp [hop]), List.filter_nil]

/-- **Where no lookup meets a flow that has paused, the sweeps may be left out.** -/
theorem verdicts_unswept {ops : List FlowOp} (htimed : Timed ops) (h : Unpaused (unswept ops)) :
    verdicts {} ops = verdicts {} (unswept ops) := by
  induction ops using List.reverseRecOn with
  | nil => rfl
  | append_singleton ops op ih =>
    have hbefore := (timed_snoc.mp htimed).1
    by_cases hsweep : op.isSweep = true
    · obtain ⟨t, rfl⟩ : ∃ t, op = .sweep t := by
        cases op with
        | sweep t => exact ⟨t, rfl⟩
        | _ => cases hsweep
      have hsnoc : unswept (ops ++ [.sweep t]) = unswept ops := by
        unfold unswept
        rw [List.filter_append, List.filter_cons_of_neg (by simp [FlowOp.isSweep]),
          List.filter_nil, List.append_nil]
      rw [hsnoc] at h ⊢
      rw [verdicts_snoc, ih hbefore h]
      exact List.append_nil _
    · rw [Bool.not_eq_true] at hsweep
      rw [unswept_snoc hsweep] at h ⊢
      obtain ⟨hun, hmeets⟩ := unpaused_snoc.mp h
      rw [verdicts_snoc, verdicts_snoc, ih hbefore hun]
      cases op with
      | allows pkt t =>
        have hmeets := hmeets pkt t rfl
        have htimed' : Timed (unswept ops ++ [.allows pkt t]) := by
          rw [← unswept_snoc rfl]
          exact timed_unswept htimed
        have hfull : MeetsUnpaused ops pkt t := by
          unfold MeetsUnpaused at hmeets ⊢
          simpa only [stamps_unswept] using hmeets
        unfold FlowOp.verdict
        dsimp only
        rw [allowsInbound_of_meetsUnpaused htimed hfull,
          allowsInbound_of_meetsUnpaused htimed' hmeets]
        simp only [stamps_unswept]
      | record pkt t => rfl
      | sweep t => cases hsweep
      | clear => rfl

/-- A sweep before every call changes the answer of a lookup that meets a flow that has
    paused. -/
theorem unpaused_of_verdicts_eq {ops : List FlowOp} (hns : ∀ op ∈ ops, op.isSweep = false)
    (h : verdicts {} (everSwept ops) = verdicts {} ops) : Unpaused ops := by
  induction ops using List.reverseRecOn with
  | nil => exact fun pre pkt t post hops => by simp at hops
  | append_singleton ops op ih =>
    have hns' : ∀ o ∈ ops, o.isSweep = false := fun o ho => hns o (List.mem_append_left _ ho)
    -- the sweep before the last call answers nothing
    have hswept : verdicts {} (everSwept (ops ++ [op])) = verdicts {} (everSwept ops) ++
        (op.verdict (flowsAfter (everSwept ops ++ (op.time.map .sweep).toList))).toList := by
      rw [everSwept_snoc, ← List.append_assoc, verdicts_snoc]
      congr 1
      cases op.time with
      | none => simp
      | some t =>
        show verdicts {} (everSwept ops ++ [.sweep t]) = _
        rw [verdicts_snoc]
        exact List.append_nil _
    rw [hswept, verdicts_snoc] at h
    obtain ⟨hpre, hlast⟩ := List.append_inj' h (by cases op <;> rfl)
    refine unpaused_snoc.mpr ⟨ih hns' hpre, ?_⟩
    rintro pkt t rfl k hk newest hnewest halive hpaused
    have hans : ((flowsAfter (everSwept ops ++ [.sweep t])).allowsInbound pkt t) =
        (flowsAfter ops).allowsInbound pkt t := List.singleton_inj.mp hlast
    have hgone : (flowsAfter (everSwept ops ++ [.sweep t])).flows k.reversed = none := by
      rw [flowsAfter_snoc]
      show ((flowsAfter (everSwept ops)).flows k.reversed).filter (alive t) = none
      rw [flows_of_paused hpaused]
      rfl
    rw [allowsInbound_eq, allowsInbound_eq, Option.mem_def.mp hk, Option.any_some, Option.any_some,
      hgone, flows_eq_of_unswept k.reversed hns', hnewest, Option.any_some, halive] at hans
    cases hans

/-- **Sweeping is invisible** exactly to the traces in which no lookup meets a flow that has
    paused: then inserting and deleting sweeps, each at the clock of its place, changes no
    answer, and else some sweeps do. -/
theorem sweep_invisible_iff {ops : List FlowOp} (htimed : Timed ops) :
    (∀ ops', Timed ops' → unswept ops' = unswept ops → verdicts {} ops' = verdicts {} ops) ↔
      Unpaused (unswept ops) := by
  constructor
  · intro h
    have hfree : ∀ op ∈ unswept ops, op.isSweep = false := fun op hop => by
      simpa using (List.mem_filter.mp hop).2
    have hidem : unswept (unswept ops) = unswept ops := by
      unfold unswept
      rw [List.filter_filter]
      simp only [Bool.and_self]
    refine unpaused_of_verdicts_eq hfree ?_
    rw [h _ (timed_everSwept (timed_unswept htimed)) (by rw [unswept_everSwept, hidem]),
      h _ (timed_unswept htimed) hidem]
  · intro h ops' htimed' hsame
    rw [verdicts_unswept htimed h, verdicts_unswept htimed' (hsame ▸ h), hsame]

namespace Sample

/-- A TCP segment of host `src` to host `dst`, up to the flags byte. -/
def segment (src dst sport dport flags : UInt8) : List UInt8 :=
  [0x45, 0, 0, 0, 0, 0, 0, 0, 0, 6, 0, 0, 10, 99, 0, src, 10, 99, 0, dst,
    0, sport, 0, dport, 0, 0, 0, 0, 0, 0, 0, 0, 0, flags]

/-- Host 2 opens a connection to host 5, sends once more 199 s later, and is answered. -/
def pausing : List FlowOp :=
  [.record (segment 2 5 51 22 0x02) 1000, .record (segment 2 5 51 22 0x10) 200000,
    .allows (segment 5 2 22 51 0x10) 200001]

/-- The same, with a tick in the pause. -/
def pausingSwept : List FlowOp :=
  [.record (segment 2 5 51 22 0x02) 1000, .sweep 150000, .record (segment 2 5 51 22 0x10) 200000,
    .allows (segment 5 2 22 51 0x10) 200001]

/-- The same connection, with the packet 99 s after the SYN. -/
def steady : List FlowOp :=
  [.record (segment 2 5 51 22 0x02) 1000, .record (segment 2 5 51 22 0x10) 100000,
    .allows (segment 5 2 22 51 0x10) 200001]

end Sample

/-- The answer to a connection is return traffic of its SYN, 100 s after the last packet. -/
theorem tcp_admission_sound_steady :
    Sent (Sample.steady.take 2) ⟨⟨10, 99, 0, 2⟩, ⟨10, 99, 0, 5⟩, 6, 51, 22⟩
      (fun syn _ => isTcpInitiation syn = true) :=
  ((tcp_admission_sound (Sample.steady.take 2) (Sample.segment 5 2 22 51 0x10) 200001
    (k := ⟨⟨10, 99, 0, 5⟩, ⟨10, 99, 0, 2⟩, 6, 22, 51⟩) (by decide +kernel) rfl).1
    (by decide +kernel)).1

/-- Over a pause longer than the TTL the sweeps decide. -/
theorem sweep_invisible_pausing :
    ¬ ∀ ops', Timed ops' → unswept ops' = unswept Sample.pausing →
      verdicts {} ops' = verdicts {} Sample.pausing := by
  intro h
  refine (sweep_invisible_iff (by decide +kernel)).mp h
    (Sample.pausing.take 2) (Sample.segment 5 2 22 51 0x10) 200001 [] (by decide +kernel)
    ⟨⟨10, 99, 0, 5⟩, ⟨10, 99, 0, 2⟩, 6, 22, 51⟩ (by decide +kernel) 200000 (by decide +kernel)
    (by decide +kernel) ?_
  decide +kernel

/-- **A sweep in the pause changes the answer**: the expired entry is refreshed where it still
    is, and stays gone where it is swept. -/
theorem sweep_changes_verdict :
    ¬ ∀ ops ops', Timed ops → Timed ops' → unswept ops' = unswept ops →
      verdicts {} ops' = verdicts {} ops := by
  intro h
  have heq := h Sample.pausing Sample.pausingSwept (by decide +kernel) (by decide +kernel)
    (by decide +kernel)
  revert heq
  decide +kernel

end Nullgate
