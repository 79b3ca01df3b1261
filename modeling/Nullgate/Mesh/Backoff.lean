/-
  File:      Nullgate/Mesh/Backoff.lean
  Subject:   THE DIAL BACKOFF (`engine.rs`): when a peer that failed may be dialed again.

  A failed dial extends the window of its peer, a success or a sign of life removes the entry,
  and a network change makes every window due without forgetting the failures.

  * `dialBackoffFilter`, `recordDialFailure`, `resetDialBackoff`, `expireDialBackoff`;
  * `failuresSinceReset`: what the table counts, read off the calls;
  * `toNat_dialDelay`: the delay in closed form, for every count;
  * `backoff_schedule`: over every sequence of calls, when the filter passes a peer.
-/
import Mathlib.Algebra.Group.Nat.Defs
import Nullgate.Lib.Fold
import Nullgate.Roster.Build

namespace Nullgate

open Nullgate.Lib

/-! ## 1. The table -/

/-- `DIAL_TIMEOUT.as_millis()`. -/
def DIAL_TIMEOUT_MS : UInt64 := 20000

/-- Upper bound on the per-peer dial backoff. -/
def DIAL_BACKOFF_MAX_MS : UInt64 := 300000

/-- The backoff state of one peer. -/
structure BackoffEntry where
  failures : UInt32 := 0
  /-- the earliest time a dial to the peer is allowed -/
  nextOkMs : UInt64 := 0
  deriving DecidableEq

/-- The map of backoff entries. -/
abbrev DialBackoff := Id → Option BackoffEntry

/-- `u64::saturating_mul`. -/
def saturatingMul (a b : UInt64) : UInt64 :=
  if a.toNat * b.toNat < UInt64.size then a * b else 0xffffffffffffffff

/-- `failures.saturating_add(1)`. -/
def saturatingSucc (n : UInt32) : UInt32 := if n = 0xffffffff then n else n + 1

/-- `a << n` of two machine integers: an overflow where the shift is not below the width. -/
def checkedShl (a : UInt64) (n : UInt32) : Option UInt64 :=
  if n.toNat < 64 then some (a <<< n.toUInt64) else none

/-- The delay behind the `failures`-th failure. -/
def dialDelay (failures : UInt32) : UInt64 :=
  min (saturatingMul DIAL_TIMEOUT_MS (1 <<< (min failures 20).toUInt64)) DIAL_BACKOFF_MAX_MS

/-- The peers whose window has elapsed. -/
def dialBackoffFilter (toDial : List Id) (backoff : DialBackoff) (now : UInt64) : List Id :=
  toDial.filter fun id => (backoff id).all fun e => e.nextOkMs ≤ now

/-- **Record a failed dial**: extend the window of the peer. -/
def recordDialFailure (backoff : DialBackoff) (peer : Id) (now : UInt64) : DialBackoff :=
  let e := (backoff peer).getD {}
  let failures := saturatingSucc e.failures
  Function.update backoff peer
    (some { e with failures, nextOkMs := saturatingAdd now (dialDelay failures) })

/-- Clear the backoff of a peer. -/
def resetDialBackoff (backoff : DialBackoff) (peer : Id) : DialBackoff :=
  Function.update backoff peer none

/-- Make every window due, and keep the failure counts. -/
def expireDialBackoff (backoff : DialBackoff) : DialBackoff := fun peer =>
  (backoff peer).map fun e => { e with nextOkMs := 0 }

/-! ## 2. Calls -/

/-- A call that writes the table. -/
inductive BackoffCall where
  | record (peer : Id) (now : UInt64)
  | reset (peer : Id)
  | expire
  deriving DecidableEq

namespace BackoffCall

def step (backoff : DialBackoff) : BackoffCall → DialBackoff
  | record peer now => recordDialFailure backoff peer now
  | reset peer => resetDialBackoff backoff peer
  | expire => expireDialBackoff backoff

/-- The call is a failure of `p`. -/
def fails (p : Id) : BackoffCall → Bool
  | record peer _ => peer = p
  | _ => false

/-- The call is about `p` alone. -/
def isAbout (p : Id) : BackoffCall → Bool
  | record peer _ => peer = p
  | reset peer => peer = p
  | expire => false

/-- The call leaves the window of `p` as it is. -/
def leaves (p : Id) (c : BackoffCall) : Bool := !c.isAbout p && c ≠ expire

end BackoffCall

/-- The table behind the calls. -/
def backoffAfter (calls : List BackoffCall) : DialBackoff :=
  run BackoffCall.step (fun _ => none) calls

/-- **The failures of `p` since its last reset.** -/
def failuresSinceReset (p : Id) (calls : List BackoffCall) : Nat :=
  (calls.reverse.takeWhile fun c => c ≠ .reset p).countP (BackoffCall.fails p)

/-- When a peer is due whose `k`-th failure was at `f`. -/
def dueAt (k f : Nat) : Nat := min (2 ^ 64 - 1) (f + min (20000 * 2 ^ k) 300000)

section

variable {p q : Id} {now : UInt64} {calls : List BackoffCall} {c : BackoffCall}

@[simp] theorem backoffAfter_snoc :
    backoffAfter (calls ++ [c]) = BackoffCall.step (backoffAfter calls) c := by
  unfold backoffAfter
  rw [run_append, run_cons, run_nil]

theorem failuresSinceReset_snoc :
    failuresSinceReset p (calls ++ [c]) =
      if c = .reset p then 0
      else failuresSinceReset p calls + if c.fails p then 1 else 0 := by
  unfold failuresSinceReset
  rw [List.reverse_append, List.reverse_singleton, List.singleton_append, List.takeWhile_cons]
  by_cases hc : c = .reset p
  · rw [if_neg (by simpa using hc), if_pos hc, List.countP_nil]
  · rw [if_pos (by simpa using hc), if_neg hc, List.countP_cons]

/-- Calls that leave the window of `p` count no failure of it. -/
theorem failuresSinceReset_append {post : List BackoffCall}
    (h : ∀ c ∈ post, c.fails p = false ∧ c ≠ .reset p) :
    failuresSinceReset p (calls ++ post) = failuresSinceReset p calls := by
  induction post using List.reverseRecOn with
  | nil => rw [List.append_nil]
  | append_singleton post c ih =>
    obtain ⟨hfail, hreset⟩ := h c (by simp)
    rw [← List.append_assoc, failuresSinceReset_snoc, if_neg hreset, hfail,
      ih fun c hc => h c (List.mem_append_left _ hc)]
    rfl

variable {backoff : DialBackoff} {peer : Id}

theorem BackoffCall.record_of_ne (h : peer ≠ p) :
    step backoff (.record peer now) p = backoff p := Function.update_of_ne h.symm ..

theorem BackoffCall.reset_of_ne (h : peer ≠ p) : step backoff (.reset peer) p = backoff p :=
  Function.update_of_ne h.symm ..

/-- **The calls about others leave the entry of `p`.** -/
theorem BackoffCall.step_of_leaves (h : c.leaves p = true) : step backoff c p = backoff p := by
  cases c with
  | record peer now => exact record_of_ne (by simpa [leaves, isAbout] using h)
  | reset peer => exact reset_of_ne (by simpa [leaves, isAbout] using h)
  | expire => simp [leaves] at h

end

/-! ## 3. The delay in closed form -/

theorem toNat_saturatingSucc (n : UInt32) :
    (saturatingSucc n).toNat = min (n.toNat + 1) (2 ^ 32 - 1) := by
  unfold saturatingSucc
  have hn := n.toNat_lt
  split
  · rename_i h
    subst h
    rfl
  · rename_i h
    have hne : n.toNat ≠ 2 ^ 32 - 1 := fun he => h (UInt32.toNat_inj.mp he)
    rw [UInt32.toNat_add]
    show (n.toNat + 1) % 2 ^ 32 = _
    omega

theorem toNat_saturatingAdd (a b : UInt64) :
    (saturatingAdd a b).toNat = min (2 ^ 64 - 1) (a.toNat + b.toNat) := by
  unfold saturatingAdd
  split
  · rename_i h
    rw [UInt64.size] at h
    rw [UInt64.toNat_add]
    omega
  · rename_i h
    rw [UInt64.size] at h
    show 2 ^ 64 - 1 = _
    omega

theorem toNat_min_twenty (n : UInt32) : (min n 20).toNat = min n.toNat 20 := by
  show (if n ≤ 20 then n else 20).toNat = _
  split
  · rename_i h
    have hn : n.toNat ≤ 20 := h
    omega
  · rename_i h
    have hn : ¬ n.toNat ≤ 20 := h
    show 20 = _
    omega

theorem toNat_min (a b : UInt64) : (min a b).toNat = min a.toNat b.toNat := by
  show (if a ≤ b then a else b).toNat = _
  split
  · rename_i h
    have hab : a.toNat ≤ b.toNat := h
    omega
  · rename_i h
    have hab : ¬ a.toNat ≤ b.toNat := h
    omega

/-- The shift is below the width, and loses nothing. -/
theorem checkedShl_one (n : UInt32) :
    checkedShl 1 (min n 20) = some (1 <<< (min n 20).toUInt64) ∧
      ((1 : UInt64) <<< (min n 20).toUInt64).toNat = 2 ^ min n.toNat 20 := by
  have hn := toNat_min_twenty n
  have hlt : min n.toNat 20 < 64 := by omega
  have hpow : 2 ^ min n.toNat 20 < 2 ^ 64 := Nat.pow_lt_pow_right (by decide) hlt
  refine ⟨if_pos (by omega), ?_⟩
  rw [UInt64.toNat_shiftLeft, UInt32.toNat_toUInt64, hn, Nat.mod_eq_of_lt hlt, Nat.shiftLeft_eq]
  show 1 * 2 ^ min n.toNat 20 % 2 ^ 64 = _
  rw [Nat.one_mul, Nat.mod_eq_of_lt hpow]

/-- **The delay in closed form**: neither the cap of the shift nor a saturation is visible. -/
theorem toNat_dialDelay (n : UInt32) :
    (dialDelay n).toNat = min (20000 * 2 ^ n.toNat) 300000 := by
  obtain ⟨-, hshift⟩ := checkedShl_one n
  have hpow : 2 ^ min n.toNat 20 ≤ 2 ^ 20 := Nat.pow_le_pow_right (by decide) (by omega)
  have hmul : (saturatingMul DIAL_TIMEOUT_MS (1 <<< (min n 20).toUInt64)).toNat =
      20000 * 2 ^ min n.toNat 20 := by
    have hbase : DIAL_TIMEOUT_MS.toNat = 20000 := rfl
    unfold saturatingMul
    rw [hbase, hshift, if_pos (by rw [UInt64.size]; omega), UInt64.toNat_mul, hbase, hshift]
    omega
  unfold dialDelay
  rw [toNat_min, hmul]
  show min _ 300000 = _
  rcases Nat.le_total n.toNat 20 with h | h
  · rw [Nat.min_eq_left h]
  · -- from the twentieth failure on the delay is the maximum either way
    have hbig : 2 ^ 20 ≤ 2 ^ n.toNat := Nat.pow_le_pow_right (by decide) h
    rw [Nat.min_eq_right h]
    omega

/-- A count that has saturated delays as the count itself would. -/
theorem min_delay_saturated {cap : Nat} (hcap : 4 ≤ cap) (k : Nat) :
    min (20000 * 2 ^ min k cap) 300000 = min (20000 * 2 ^ k) 300000 := by
  rcases Nat.le_total k cap with h | h
  · rw [Nat.min_eq_left h]
  · have hk : 2 ^ 4 ≤ 2 ^ k := Nat.pow_le_pow_right (by decide) (by omega)
    have hpow : 2 ^ 4 ≤ 2 ^ cap := Nat.pow_le_pow_right (by decide) hcap
    rw [Nat.min_eq_right h]
    omega

/-! ## 4. Sequences of calls -/

section

variable {p : Id} {calls : List BackoffCall}

/-- The count the next failure goes on from. -/
theorem failures_getD (h : (backoffAfter calls p).map (fun e => e.failures.toNat) =
      if failuresSinceReset p calls = 0 then none
      else some (min (failuresSinceReset p calls) (2 ^ 32 - 1))) :
    ((backoffAfter calls p).getD {}).failures.toNat =
      min (failuresSinceReset p calls) (2 ^ 32 - 1) := by
  cases he : backoffAfter calls p with
  | none =>
    rw [he, Option.map_none] at h
    split at h
    · rename_i h0
      rw [h0]
      rfl
    · cases h
  | some e =>
    rw [he, Option.map_some] at h
    split at h
    · cases h
    · exact Option.some.inj h

/-- **What the table counts**: a peer has an entry when it failed since its last reset, with
    the number of failures, saturated. An expiry changes no count. -/
theorem failures_backoffAfter (p : Id) (calls : List BackoffCall) :
    (backoffAfter calls p).map (fun e => e.failures.toNat) =
      if failuresSinceReset p calls = 0 then none
      else some (min (failuresSinceReset p calls) (2 ^ 32 - 1)) := by
  induction calls using List.reverseRecOn with
  | nil => rfl
  | append_singleton calls c ih =>
    rw [backoffAfter_snoc, failuresSinceReset_snoc]
    cases c with
    | record peer now =>
      by_cases hp : peer = p
      · subst hp
        have hcount := failures_getD ih
        simp only [BackoffCall.step, recordDialFailure, Function.update_self, Option.map_some,
          toNat_saturatingSucc, hcount, BackoffCall.fails, decide_true, reduceCtorEq, if_false,
          if_true, Nat.add_eq_zero_iff, Nat.one_ne_zero, and_false]
        rw [Option.some_inj]
        omega
      · rw [BackoffCall.record_of_ne hp, ih]
        simp [BackoffCall.fails, hp]
    | reset peer =>
      by_cases hp : peer = p
      · subst hp
        simp [BackoffCall.step, resetDialBackoff]
      · rw [BackoffCall.reset_of_ne hp, ih]
        simp [BackoffCall.fails, hp]
    | expire =>
      have hmap : (expireDialBackoff (backoffAfter calls) p).map (fun e => e.failures.toNat) =
          (backoffAfter calls p).map (fun e => e.failures.toNat) := by
        simp [expireDialBackoff, Function.comp_def]
      simpa [BackoffCall.step, BackoffCall.fails] using hmap.trans ih

/-- Calls that leave the window of `p` leave its entry. -/
theorem backoffAfter_leaves {post : List BackoffCall} (h : ∀ c ∈ post, c.leaves p = true) :
    backoffAfter (calls ++ post) p = backoffAfter calls p := by
  induction post using List.reverseRecOn with
  | nil => rw [List.append_nil]
  | append_singleton post c ih =>
    rw [← List.append_assoc, backoffAfter_snoc, BackoffCall.step_of_leaves (h c (by simp)),
      ih fun c hc => h c (List.mem_append_left _ hc)]

/-- **The window behind a failure.** -/
theorem backoffAfter_record (p : Id) (calls : List BackoffCall) (f : UInt64) :
    ∃ e, backoffAfter (calls ++ [.record p f]) p = some e ∧
      e.nextOkMs.toNat = dueAt (failuresSinceReset p (calls ++ [.record p f])) f.toNat := by
  have hcount := failures_backoffAfter p (calls ++ [.record p f])
  have hk : failuresSinceReset p (calls ++ [.record p f]) ≠ 0 := by
    simp [failuresSinceReset_snoc, BackoffCall.fails]
  rw [if_neg hk, backoffAfter_snoc] at hcount
  simp only [BackoffCall.step, recordDialFailure, Function.update_self, Option.map_some,
    Option.some_inj] at hcount
  refine ⟨_, by rw [backoffAfter_snoc, BackoffCall.step, recordDialFailure,
    Function.update_self], ?_⟩
  rw [toNat_saturatingAdd, toNat_dialDelay, hcount, min_delay_saturated (by decide)]
  rfl

/-- An expired window stays due until the next failure. -/
theorem nextOkMs_after_expire {post : List BackoffCall}
    (h : ∀ c ∈ post, c.fails p = false) :
    ∀ e ∈ backoffAfter (calls ++ .expire :: post) p, e.nextOkMs = 0 := by
  induction post using List.reverseRecOn with
  | nil =>
    intro e he
    rw [backoffAfter_snoc] at he
    obtain ⟨e', -, rfl⟩ := Option.map_eq_some_iff.mp he
    rfl
  | append_singleton post c ih =>
    have ih := ih fun c hc => h c (List.mem_append_left _ hc)
    have hc := h c (by simp)
    rw [← List.cons_append, ← List.append_assoc, backoffAfter_snoc]
    cases c with
    | record peer now =>
      rw [BackoffCall.record_of_ne (by simpa [BackoffCall.fails] using hc)]
      exact ih
    | reset peer =>
      intro e he
      by_cases hp : peer = p
      · subst hp
        simp [BackoffCall.step, resetDialBackoff] at he
      · rw [BackoffCall.reset_of_ne hp] at he
        exact ih e he
    | expire =>
      intro e he
      obtain ⟨e', -, rfl⟩ := Option.map_eq_some_iff.mp he
      rfl

theorem mem_dialBackoffFilter {toDial : List Id} {backoff : DialBackoff} {now : UInt64} :
    p ∈ dialBackoffFilter toDial backoff now ↔
      p ∈ toDial ∧ ∀ e ∈ backoff p, e.nextOkMs ≤ now := by
  simp [dialBackoffFilter, Option.all_eq_true]

/-- A peer whose last failure was at `f`, neither reset nor expired since, is held until the
    window behind that failure has elapsed. -/
theorem passes_iff_dueAt {toDial : List Id} (hp : p ∈ toDial) {t f : UInt64}
    {pre post : List BackoffCall} (hcalls : calls = pre ++ .record p f :: post)
    (hpost : ∀ c ∈ post, c.leaves p = true) :
    p ∈ dialBackoffFilter toDial (backoffAfter calls) t ↔
      dueAt (failuresSinceReset p calls) f.toNat ≤ t.toNat := by
  have hsplit : calls = (pre ++ [.record p f]) ++ post := by rw [hcalls, List.append_assoc]; rfl
  have hcount : failuresSinceReset p calls = failuresSinceReset p (pre ++ [.record p f]) := by
    rw [hsplit]
    refine failuresSinceReset_append fun c hc => ?_
    have hleaves := hpost c hc
    cases c <;> simp_all [BackoffCall.leaves, BackoffCall.isAbout, BackoffCall.fails]
  obtain ⟨e, he, hdue⟩ := backoffAfter_record p pre f
  rw [mem_dialBackoffFilter, hcount, ← hdue, hsplit, backoffAfter_leaves hpost, he]
  simp [hp, UInt64.le_iff_toNat_le]

/-- A peer that never failed since its last reset passes. -/
theorem passes_of_no_failure {toDial : List Id} (hp : p ∈ toDial)
    (h0 : failuresSinceReset p calls = 0) (t : UInt64) :
    p ∈ dialBackoffFilter toDial (backoffAfter calls) t := by
  have hcount := failures_backoffAfter p calls
  rw [if_pos h0] at hcount
  rw [mem_dialBackoffFilter, Option.map_eq_none_iff.mp hcount]
  exact ⟨hp, nofun⟩

/-- One whose window has been made due since its last failure passes. -/
theorem passes_of_expired {toDial : List Id} (hp : p ∈ toDial) {pre post : List BackoffCall}
    (hcalls : calls = pre ++ .expire :: post) (hpost : ∀ c ∈ post, c.fails p = false)
    (t : UInt64) : p ∈ dialBackoffFilter toDial (backoffAfter calls) t := by
  rw [mem_dialBackoffFilter, hcalls]
  refine ⟨hp, fun e he => ?_⟩
  rw [nextOkMs_after_expire hpost e he]
  exact UInt64.le_iff_toNat_le.mpr (Nat.zero_le _)

/-- A call about `p` changes no verdict on another peer. -/
theorem mem_filter_step {toDial : List Id} {backoff : DialBackoff} {c : BackoffCall} {q : Id}
    {t : UInt64} (hc : c.isAbout p = true) (hq : q ≠ p) :
    q ∈ dialBackoffFilter toDial (BackoffCall.step backoff c) t ↔
      q ∈ dialBackoffFilter toDial backoff t := by
  have hleaves : c.leaves q = true := by
    cases c with
    | record peer now =>
      obtain rfl : peer = p := by simpa [BackoffCall.isAbout] using hc
      simp [BackoffCall.leaves, BackoffCall.isAbout, hq.symm]
    | reset peer =>
      obtain rfl : peer = p := by simpa [BackoffCall.isAbout] using hc
      simp [BackoffCall.leaves, BackoffCall.isAbout, hq.symm]
    | expire => cases hc
  rw [mem_dialBackoffFilter, mem_dialBackoffFilter, BackoffCall.step_of_leaves hleaves]

/-! ## 5. The schedule -/

/-- **The backoff schedule**, over every sequence of calls. A peer whose last failure was its
    `k`-th since a reset is due `min (20000 * 2 ^ k) 300000` ms after it, at the latest at the
    end of the clock; without a failure, or behind an expiry, it is due at once. An expiry
    keeps every count, no shift overflows, and a call about one peer leaves the others. -/
theorem backoff_schedule {toDial : List Id} (hp : p ∈ toDial) (calls : List BackoffCall)
    (t : UInt64) :
    (∀ pre f post, calls = pre ++ .record p f :: post → (∀ c ∈ post, c.leaves p = true) →
      (p ∈ dialBackoffFilter toDial (backoffAfter calls) t ↔
        min (2 ^ 64 - 1) (f.toNat + min (20000 * 2 ^ failuresSinceReset p calls) 300000) ≤
          t.toNat)) ∧
    (failuresSinceReset p calls = 0 → p ∈ dialBackoffFilter toDial (backoffAfter calls) t) ∧
    (∀ pre post, calls = pre ++ .expire :: post → (∀ c ∈ post, c.fails p = false) →
      p ∈ dialBackoffFilter toDial (backoffAfter calls) t) ∧
    (backoffAfter (calls ++ [.expire]) p).map BackoffEntry.failures =
      (backoffAfter calls p).map BackoffEntry.failures ∧
    (backoffAfter calls p).map (fun e => e.failures.toNat) =
      (if failuresSinceReset p calls = 0 then none
        else some (min (failuresSinceReset p calls) (2 ^ 32 - 1))) ∧
    (∀ n, (checkedShl 1 (min n 20)).isSome ∧
      (dialDelay n).toNat = min (20000 * 2 ^ n.toNat) 300000) ∧
    ∀ c q, BackoffCall.isAbout p c = true → q ≠ p →
      ∀ t', q ∈ dialBackoffFilter toDial (backoffAfter (calls ++ [c])) t' ↔
        q ∈ dialBackoffFilter toDial (backoffAfter calls) t' := by
  refine ⟨fun pre f post hcalls hpost => passes_iff_dueAt hp hcalls hpost,
    fun h0 => passes_of_no_failure hp h0 t,
    fun pre post hcalls hpost => passes_of_expired hp hcalls hpost t, ?_,
    failures_backoffAfter p calls, fun n => ⟨?_, toNat_dialDelay n⟩, ?_⟩
  · rw [backoffAfter_snoc, BackoffCall.step, expireDialBackoff, Option.map_map]
    rfl
  · rw [(checkedShl_one n).1]
    rfl
  · intro c q hc hq t'
    rw [backoffAfter_snoc]
    exact mem_filter_step hc hq

end

/-- Three failures, an expiry, and a fourth: the schedule goes on with the maximum. -/
theorem backoff_schedule_resumes :
    Sample.key 1 ∉ dialBackoffFilter [Sample.key 1]
      (backoffAfter [.record (Sample.key 1) 0, .record (Sample.key 1) 0,
        .record (Sample.key 1) 0, .expire, .record (Sample.key 1) 0]) 299999 := by
  intro h
  have hdue := ((backoff_schedule (List.mem_singleton_self (Sample.key 1)) _ _).1
    [.record (Sample.key 1) 0, .record (Sample.key 1) 0, .record (Sample.key 1) 0, .expire] 0 []
    rfl (by simp)).mp h
  revert hdue
  decide +kernel

end Nullgate
