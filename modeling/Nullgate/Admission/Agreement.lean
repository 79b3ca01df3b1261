/-
  File:      Nullgate/Admission/Agreement.lean
  Subject:   TWO HONEST ENDS AGREE, and neither waits forever.

  * `Link.Inv`: what each end has read is what the other has written, message by message;
    so nobody is stopped or starved by the other's return;
  * `Link.measure_step`: whatever happens uses up some of what can happen;
  * `Link.both_ended_of_rest`: where nothing can happen any more, both ends have returned: of two
    ends that wait, one waits for a message that is written;
  * `honest_ends_agree`: both ends return in every live schedule, and what they return agrees.
-/
import Nullgate.Admission.Link
import Nullgate.Lib.Schedule

namespace Nullgate.Admission

open Nullgate.Lib

variable {hmac : Bytes 32 → List UInt8 → Bytes 32} {p : Side → Party} {w : Link}

namespace Link

/-! ## 1. What each end has read is what the other has written -/

/-- **What holds in every state of the two ends.** -/
structure Inv (hmac : Bytes 32 → List UInt8 → Bytes 32) (p : Side → Party) (w : Link) : Prop where
  holds : ∀ side s, w.ends side = some s → ∃ k, Holds hmac p side k (w.arrived side)
    (w.written side.other).length (w.ended side.other) s
  unborn : ∀ side, w.ends side = none → side = .accept ∧ w.arrived side = 0

theorem written_eq {side : Side} {s : Session} (h : w.ends side = some s) :
    w.written side = s.written := by rw [written, h]; rfl

theorem ended_eq {side : Side} {s : Session} (h : w.ends side = some s) :
    w.ended side = s.ended := by rw [ended, h]; rfl

/-- An end that has returned is there, and has read everything. -/
theorem Inv.of_ended (h : Inv hmac p w) {side : Side} (hended : w.ended side = true) :
    ∃ s, w.ends side = some s ∧ Holds hmac p side (rounds p side) (w.arrived side)
      (w.written side.other).length (w.ended side.other) s := by
  obtain ⟨s, hs, hend⟩ := (Option.any_eq_true _ _).mp hended
  obtain ⟨k, hk⟩ := h.holds side s hs
  rw [hk.stands.ended_iff.mp hend] at hk
  exact ⟨s, hs, hk⟩

/-- Who has returned has written everything. -/
theorem Inv.length_written_of_ended (h : Inv hmac p w) {side : Side}
    (hended : w.ended side.other = true) :
    (w.written side.other).length = off (rounds p side) := by
  obtain ⟨s, hs, hk⟩ := h.of_ended hended
  rw [written_eq hs, hk.stands.length_written, rounds_other, min_eq_right (by omega)]

/-- Who has returned has been answered to the last message. -/
theorem Inv.rounds_le_of_ended (h : Inv hmac p w) {side : Side} {s : Session} {k : Nat}
    (hs : w.ends side = some s) (hk : StandsAt hmac p side k s)
    (hended : w.ended side.other = true) : rounds p side ≤ k + 1 := by
  obtain ⟨o, ho, hall⟩ := h.of_ended hended
  have hread := hall.read.trans hall.got
  rw [Side.other_other, written_eq hs, hk.length_written, rounds_other] at hread
  have hrounds : rounds p side = 3 ∨ rounds p side = 1 := rounds_eq
  by_contra hlt
  rw [min_eq_left (by omega)] at hread
  rcases hrounds with hr | hr <;> rw [hr] at hread hlt <;>
    rcases k with _ | _ | _ | k <;> simp [off] at hread <;> omega

/-- **One end changes**, keeps what it has written, and what it has returned for good. -/
theorem Inv.update (h : Inv hmac p w) {w' : Link} (side : Side) {s' : Session} {k n : Nat}
    (hends : w'.ends = Function.update w.ends side (some s'))
    (harrived : w'.arrived = Function.update w.arrived side n)
    (hs' : Holds hmac p side k n (w.written side.other).length (w.ended side.other) s')
    (hlen : (w.written side).length ≤ s'.written.length)
    (hended : w.ended side = true →
      s'.ended = true ∧ s'.written.length = (w.written side).length) : Inv hmac p w' := by
  have hself : w'.ends side = some s' := by rw [hends, Function.update_self]
  have hother : w'.ends side.other = w.ends side.other := by
    rw [hends, Function.update_of_ne side.other_ne]
  have hwritten : w'.written side.other = w.written side.other := by
    rw [written, hother, written]
  have hended' : w'.ended side.other = w.ended side.other := by rw [Link.ended, hother, Link.ended]
  have harrself : w'.arrived side = n := by rw [harrived, Function.update_self]
  have harrother : w'.arrived side.other = w.arrived side.other := by
    rw [harrived, Function.update_of_ne side.other_ne]
  refine ⟨fun side' o ho => ?_, fun side' hnone => ?_⟩
  · rcases side.eq_or_eq_other side' with rfl | rfl
    · rw [hself] at ho
      obtain rfl := Option.some.inj ho
      exact ⟨k, by rw [harrself, hwritten, hended']; exact hs'⟩
    · rw [hother] at ho
      obtain ⟨k', hk'⟩ := h.holds _ o ho
      rw [Side.other_other] at hk'
      refine ⟨k', ?_⟩
      rw [Side.other_other, harrother, written_eq hself, ended_eq hself]
      refine ⟨hk'.stands, hk'.inbox, hk'.read, hk'.got.trans hlen, fun heof => ?_, fun hst => ?_⟩
      · obtain ⟨hend, hall⟩ := hk'.eof heof
        obtain ⟨hend', hsame⟩ := hended hend
        exact ⟨hend', by omega⟩
      · exact (hended (hk'.stopped hst)).1
  · rcases side.eq_or_eq_other side' with rfl | rfl
    · rw [hself] at hnone
      cases hnone
    · rw [hother] at hnone
      obtain ⟨hside, hzero⟩ := h.unborn _ hnone
      exact ⟨hside, by rw [harrother, hzero]⟩

/-- Where an end begins. -/
theorem holds_begin (side : Side) {len : Nat} {fin : Bool} :
    Holds hmac p side 0 0 len fin (begin p side true) := by
  have hrounds : rounds p side = 3 ∨ rounds p side = 1 := rounds_eq
  have hmin : min (0 + 1) (rounds p side) = 1 := min_eq_left (by omega)
  refine ⟨⟨rfl, rfl, rfl, rfl, rfl, Nat.zero_le _, rfl, by rw [hmin]; rfl⟩, rfl, le_refl _,
    Nat.zero_le _, (fun h => by cases h), (fun h => by cases h)⟩

theorem inv_init : Inv hmac p (init p) := by
  refine ⟨fun side s hs => ?_, fun side hnone => ?_⟩
  · cases side with
    | dial =>
      obtain rfl := Option.some.inj hs
      exact ⟨0, holds_begin .dial⟩
    | accept => cases hs
  · cases side with
    | dial => cases hnone
    | accept => exact ⟨rfl, rfl⟩

/-- The piece of a stream that has arrived, with the bytes that come next. -/
theorem take_drop_append {F : List UInt8} {a b c m : Nat} (hab : a ≤ b) (hbc : b ≤ c) :
    (F.take b).drop a ++ ((F.take c).drop b).take m =
      (F.take (b + (((F.take c).drop b).take m).length)).drop a := by
  have hpiece : ((F.take c).drop b).take m = (F.drop b).take (min m (c - b)) := by
    rw [List.drop_take, List.take_take]
  rw [hpiece, List.drop_take, List.drop_take, List.length_take, List.length_drop]
  have hdrop : F.drop b = (F.drop a).drop (b - a) := by rw [List.drop_drop]; congr 1; omega
  rw [hdrop, ← List.take_add]
  refine List.take_eq_take_iff.mpr ?_
  rw [List.length_drop]
  omega

/-- **Every event keeps the invariant.** -/
theorem inv_step (htags : ∀ side, (p side).psk ≠ (p side.other).psk →
      tag hmac (p side).psk (fullTranscript p side) ≠
        tag hmac (p side.other).psk (fullTranscript p side))
    (h : Inv hmac p w) (e : Event) : Inv hmac p (w.step hmac p e) := by
  cases e with
  | accept =>
    simp only [step]
    cases ha : w.ends .accept with
    | some s => exact h
    | none =>
      dsimp only
      split
      · -- the dialing end waits for this one, so it has not returned
        have hdial : w.ended .dial = false := by
          rw [Bool.eq_false_iff]
          intro hended
          obtain ⟨s, hs, hall⟩ := h.of_ended hended
          have hread := hall.read.trans hall.got
          have hrounds : rounds p .dial = 3 ∨ rounds p .dial = 1 := rounds_eq
          rw [written, Side.other, ha] at hread
          rcases hrounds with hr | hr <;> rw [hr] at hread <;> simp [off] at hread
        have hwritten : w.written .accept = [] := by rw [written, ha]; rfl
        have hended : w.ended .accept = false := by rw [ended, ha]; rfl
        have hnone := (h.unborn _ ha).2
        rw [hdial]
        refine h.update .accept (n := 0) rfl ?_ (holds_begin .accept) ?_ ?_
        · rw [← hnone, Function.update_eq_self]
          rfl
        · rw [hwritten]
          exact Nat.zero_le _
        · rw [hended]
          exact fun h => by cases h
      · exact h
  | deliver side n =>
    simp only [step]
    cases hs : w.ends side with
    | none => exact h
    | some s =>
      obtain ⟨k, hk⟩ := h.holds side s hs
      have hwritten : ∃ m, off m = (w.written side.other).length ∧
          w.written side.other = (stream hmac p side.other).take (w.written side.other).length := by
        cases ho : w.ends side.other with
        | none => exact ⟨0, by rw [written, ho]; rfl, by rw [written, ho]; rfl⟩
        | some o =>
          obtain ⟨k', hk'⟩ := h.holds _ o ho
          refine ⟨_, by rw [written_eq ho, hk'.stands.length_written], ?_⟩
          rw [written_eq ho, hk'.stands.length_written, Session.written, hk'.stands.sent,
            flatMap_script]
      obtain ⟨m, -, hpiece⟩ := hwritten
      refine h.update side (k := k) rfl rfl ⟨⟨hk.stands.myId, hk.stands.peerId, hk.stands.psk,
        hk.stands.version, hk.stands.na, hk.stands.le, hk.stands.phase, hk.stands.sent⟩, ?_, ?_, ?_,
        fun heof => ?_, hk.stopped⟩ ?_ ?_
      · show s.inbox ++ _ = _
        rw [hk.inbox, hpiece]
        exact take_drop_append hk.read hk.got
      · exact hk.read.trans (Nat.le_add_right _ _)
      · have hgot := hk.got
        rw [List.length_take, List.length_drop]
        omega
      · obtain ⟨hend, hall⟩ := hk.eof heof
        exact ⟨hend, by omega⟩
      · rw [written_eq hs]
        exact le_refl _
      · rw [ended_eq hs, written_eq hs]
        exact fun h => ⟨h, rfl⟩
  | fin side =>
    simp only [step]
    cases hs : w.ends side with
    | none => exact h
    | some s =>
      obtain ⟨k, hk⟩ := h.holds side s hs
      dsimp only
      split
      · rename_i hfin
        refine h.update side (k := k) (n := w.arrived side) rfl
          (by rw [Function.update_eq_self]; rfl)
          ⟨⟨hk.stands.myId, hk.stands.peerId, hk.stands.psk, hk.stands.version, hk.stands.na,
            hk.stands.le, hk.stands.phase, hk.stands.sent⟩, hk.inbox, hk.read, hk.got,
            fun _ => hfin, hk.stopped⟩ ?_ ?_
        · rw [written_eq hs]
          exact le_refl _
        · rw [ended_eq hs, written_eq hs]
          exact fun h => ⟨h, rfl⟩
      · exact h
  | stop side =>
    simp only [step]
    cases hs : w.ends side with
    | none => exact h
    | some s =>
      obtain ⟨k, hk⟩ := h.holds side s hs
      dsimp only
      split
      · rename_i hended
        refine h.update side (k := k) (n := w.arrived side) rfl
          (by rw [Function.update_eq_self]; rfl)
          ⟨⟨hk.stands.myId, hk.stands.peerId, hk.stands.psk, hk.stands.version, hk.stands.na,
            hk.stands.le, hk.stands.phase, hk.stands.sent⟩, hk.inbox, hk.read, hk.got, hk.eof,
            fun _ => hended⟩ ?_ ?_
        · rw [written_eq hs]
          exact le_refl _
        · rw [ended_eq hs, written_eq hs]
          exact fun h => ⟨h, rfl⟩
      · exact h
  | go side =>
    simp only [step]
    cases hs : w.ends side with
    | none => exact h
    | some s =>
      obtain ⟨k, hk⟩ := h.holds side s hs
      have harrived : w.arrived = Function.update w.arrived side (w.arrived side) :=
        (Function.update_eq_self _ _).symm
      rcases hk.advance h.length_written_of_ended (h.rounds_le_of_ended hs hk.stands) (htags side)
        with ⟨hsame, -⟩ | ⟨hlt, -, hnext⟩
      · refine h.update side (k := k) rfl harrived (by rw [hsame]; exact hk) ?_ ?_
        · rw [hsame, written_eq hs]
        · rw [hsame, ended_eq hs, written_eq hs]
          exact fun h => ⟨h, rfl⟩
      · refine h.update side (k := k + 1) rfl harrived hnext ?_ ?_
        · rw [written_eq hs, hk.stands.length_written, hnext.stands.length_written]
          exact off_le (by omega)
        · rw [ended_eq hs, hk.stands.ended_iff]
          exact fun h => absurd h (Nat.ne_of_lt hlt)

/-! ## 2. Nobody waits forever -/

/-- How many reads lie before an end. -/
def rank : Phase → Nat
  | .recvVersion => 3
  | .recvNonce => 2
  | .recvTag _ => 1
  | .closed _ _ => 0

/-- What can still happen at one end. -/
def pending : Option Session → Nat
  | none => 6
  | some s => rank s.phase + (if s.eof then 0 else 1) + (if s.stopped then 0 else 1)

/-- What can still happen: at each end, and bytes that have not arrived. -/
def measure (w : Link) : Nat :=
  pending (w.ends .dial) + pending (w.ends .accept) + (68 - w.arrived .dial) +
    (68 - w.arrived .accept)

theorem measure_eq (w : Link) (side : Side) : w.measure = pending (w.ends side) +
    pending (w.ends side.other) + (68 - w.arrived side) + (68 - w.arrived side.other) := by
  rw [measure]
  cases side with
  | dial => rfl
  | accept =>
    rw [Side.other]
    omega

/-- Each read leaves fewer before an end. -/
theorem advance_cases (s : Session) : s.advance hmac = s ∨
    (rank (s.advance hmac).phase < rank s.phase ∧ (s.advance hmac).eof = s.eof ∧
      (s.advance hmac).stopped = s.stopped) := by
  cases hp : s.phase with
  | recvVersion =>
    simp only [Session.advance, hp, Session.recvVersion, Session.starve, Session.write, rank]
    split_ifs <;> simp
  | recvNonce =>
    simp only [Session.advance, hp, Session.recvNonce, Session.starve, Session.write, rank]
    split <;> split_ifs <;> simp
  | recvTag nb =>
    simp only [Session.advance, hp, Session.recvTag, Session.starve, rank]
    split
    · split_ifs <;> simp
    · simp
  | closed nb r => exact Or.inl (by rw [Session.advance, hp])

/-- Setting an end to what it is changes nothing. -/
theorem set_self {side : Side} {s : Session} (hs : w.ends side = some s) : w.set side s = w := by
  rw [set, ← hs, Function.update_eq_self]

/-- One end changes, and uses up some of the measure. -/
theorem measure_set {side : Side} {s' : Session}
    (h : pending (some s') < pending (w.ends side)) : (w.set side s').measure < w.measure := by
  rw [measure_eq _ side, measure_eq w side, set]
  dsimp only
  rw [Function.update_self, Function.update_of_ne side.other_ne]
  omega

/-- **Whatever changes anything uses up some of the measure.** -/
theorem measure_step (h : Inv hmac p w) (e : Event) :
    w.step hmac p e = w ∨ (w.step hmac p e).measure < w.measure := by
  cases e with
  | accept =>
    simp only [step]
    cases ha : w.ends .accept with
    | some s => exact Or.inl rfl
    | none =>
      dsimp only
      split
      · refine Or.inr (measure_set ?_)
        rw [ha]
        have hrank : rank (begin p .accept !w.ended .dial).phase ≤ 3 := by
          cases (begin p .accept !w.ended .dial).phase <;> simp [rank]
        simp only [pending]
        split_ifs <;> omega
      · exact Or.inl rfl
  | deliver side n =>
    simp only [step]
    cases hs : w.ends side with
    | none => exact Or.inl rfl
    | some s =>
      obtain ⟨k, hk⟩ := h.holds side s hs
      dsimp only
      by_cases hempty : ((w.written side.other).drop (w.arrived side)).take n = []
      · left
        rw [hempty, List.append_nil, List.length_nil, Nat.add_zero, ← hs, Function.update_eq_self,
          Function.update_eq_self]
      · right
        have hpos : 0 < (((w.written side.other).drop (w.arrived side)).take n).length :=
          List.length_pos_iff.mpr hempty
        have hlen : (w.written side.other).length ≤ 68 := by
          cases ho : w.ends side.other with
          | none =>
            rw [written, ho]
            exact Nat.zero_le _
          | some o =>
            obtain ⟨k', hk'⟩ := h.holds _ o ho
            have hrounds : rounds p side.other = 3 ∨ rounds p side.other = 1 := rounds_eq
            rw [written_eq ho, hk'.stands.length_written]
            exact off_le (j := 3) (by omega)
        have hroom : w.arrived side < 68 := by
          rw [List.length_take, List.length_drop] at hpos
          omega
        rw [measure_eq _ side, measure_eq w side]
        dsimp only
        rw [Function.update_self, Function.update_self, Function.update_of_ne side.other_ne,
          Function.update_of_ne side.other_ne, hs]
        simp only [pending]
        omega
  | fin side =>
    simp only [step]
    cases hs : w.ends side with
    | none => exact Or.inl rfl
    | some s =>
      dsimp only
      split
      · by_cases heof : s.eof = true
        · left
          rw [← heof]
          exact set_self hs
        · refine Or.inr (measure_set ?_)
          rw [hs]
          simp only [pending, heof]
          simp
      · exact Or.inl rfl
  | stop side =>
    simp only [step]
    cases hs : w.ends side with
    | none => exact Or.inl rfl
    | some s =>
      dsimp only
      split
      · by_cases hstopped : s.stopped = true
        · left
          rw [← hstopped]
          exact set_self hs
        · refine Or.inr (measure_set ?_)
          rw [hs]
          simp only [pending, hstopped]
          simp
      · exact Or.inl rfl
  | go side =>
    simp only [step]
    cases hs : w.ends side with
    | none => exact Or.inl rfl
    | some s =>
      dsimp only
      rcases @advance_cases hmac s with hsame | ⟨hrank, heof, hstopped⟩
      · left
        rw [hsame]
        exact set_self hs
      · refine Or.inr (measure_set ?_)
        rw [hs]
        simp only [pending, heof, hstopped]
        omega

/-- Where an end stands is no secret. -/
theorem standsAt_unique {side : Side} {s : Session} {k k' : Nat}
    (h : StandsAt hmac p side k s) (h' : StandsAt hmac p side k' s) : k = k' := by
  have hphase := h.phase.symm.trans h'.phase
  have hle := h.le
  have hle' := h'.le
  by_cases hv : (p side).version = (p side.other).version
  · rw [rounds, if_pos hv] at hle hle'
    rcases k with _ | _ | _ | k <;> rcases k' with _ | _ | _ | k' <;>
      simp [phaseAt, hv] at hphase <;> omega
  · rw [rounds, if_neg hv] at hle hle'
    rcases k with _ | _ | k <;> rcases k' with _ | _ | k' <;> simp [phaseAt, hv] at hphase <;> omega

/-- An end at rest has returned, or it waits for a message the other end has not written. -/
theorem waits_of_rest (h : Inv hmac p w) (hrest : AtRest (step hmac p) w)
    (htags : ∀ side, (p side).psk ≠ (p side.other).psk →
      tag hmac (p side).psk (fullTranscript p side) ≠
        tag hmac (p side.other).psk (fullTranscript p side))
    {side : Side} {s : Session} (hs : w.ends side = some s) {k : Nat}
    (hk : Holds hmac p side k (w.arrived side) (w.written side.other).length
      (w.ended side.other) s) :
    k = rounds p side ∨ (w.written side.other).length < off (k + 1) := by
  have hgo := hrest (.go side)
  simp only [step, hs] at hgo
  have hsame : s.advance hmac = s := by
    have hends := congrFun (congrArg ends hgo) side
    dsimp only [set] at hends
    rw [Function.update_self, hs] at hends
    exact Option.some.inj hends
  have hdeliver := hrest (.deliver side (w.written side.other).length)
  simp only [step, hs] at hdeliver
  have harrived : (w.written side.other).length ≤ w.arrived side := by
    have harr := congrFun (congrArg arrived hdeliver) side
    dsimp only at harr
    rw [Function.update_self, List.length_take, List.length_drop] at harr
    omega
  rcases hk.advance h.length_written_of_ended (h.rounds_le_of_ended hs hk.stands) (htags side)
    with ⟨-, hwait⟩ | ⟨-, -, hnext⟩
  · rcases hwait with hwait | hend
    · exact Or.inr (by omega)
    · exact Or.inl hend
  · rw [hsame] at hnext
    exact absurd (standsAt_unique hk.stands hnext.stands) (by omega)

/-- **Nobody waits at rest**: where nothing can happen any more, both ends have returned. -/
theorem both_ended_of_rest (h : Inv hmac p w) (hrest : AtRest (step hmac p) w)
    (htags : ∀ side, (p side).psk ≠ (p side.other).psk →
      tag hmac (p side).psk (fullTranscript p side) ≠
        tag hmac (p side.other).psk (fullTranscript p side)) (side : Side) :
    w.ended side = true := by
  have hdial : w.ends .dial ≠ none := fun hnone => by
    cases (h.unborn .dial hnone).1
  have haccept : w.ends .accept ≠ none := by
    intro hnone
    obtain ⟨s, hs⟩ := Option.ne_none_iff_exists'.mp hdial
    obtain ⟨k, hk⟩ := h.holds .dial s hs
    have hlen : 4 ≤ (w.written .dial).length := by
      have hrounds : rounds p .dial = 3 ∨ rounds p .dial = 1 := rounds_eq
      rw [written_eq hs, hk.stands.length_written]
      exact off_le (i := 1) (by omega)
    have hne : w.written .dial ≠ [] := fun he => by
      rw [he] at hlen
      cases hlen
    have hbegin := hrest .accept
    simp only [step, hnone] at hbegin
    rw [if_pos (Or.inl hne)] at hbegin
    have hends := congrFun (congrArg ends hbegin) .accept
    dsimp only [set] at hends
    rw [Function.update_self, hnone] at hends
    cases hends
  have hthere : ∀ side, ∃ s, w.ends side = some s := fun side => by
    cases side with
    | dial => exact Option.ne_none_iff_exists'.mp hdial
    | accept => exact Option.ne_none_iff_exists'.mp haccept
  obtain ⟨s, hs⟩ := hthere side
  obtain ⟨o, ho⟩ := hthere side.other
  obtain ⟨k, hk⟩ := h.holds side s hs
  obtain ⟨k', hk'⟩ := h.holds side.other o ho
  have hwait := waits_of_rest h hrest htags hs hk
  have hwait' := waits_of_rest h hrest htags ho hk'
  rw [written_eq ho, hk'.stands.length_written, rounds_other] at hwait
  rw [Side.other_other, written_eq hs, hk.stands.length_written, rounds_other] at hwait'
  rw [ended_eq hs, hk.stands.ended_iff]
  have hle := hk.stands.le
  have hle' := hk'.stands.le
  rw [rounds_other] at hle'
  -- whoever is behind is the one whose message has been written
  have hoff : ∀ i j, off i < off j → i < j := fun i j hij => by
    by_contra hji
    have := off_le (not_lt.mp hji)
    omega
  rcases hwait with hend | hwait
  · exact hend
  · have hlt := hoff _ _ hwait
    rcases hwait' with hend' | hwait'
    · omega
    · have hlt' := hoff _ _ hwait'
      omega

end Link

/-! ## 3. Agreement -/

/-- **What the two ends return agrees.** -/
structure Agree (p : Side → Party) (rd ra : Except String Verified) : Prop where
  verified : (p .dial).version = (p .accept).version → (p .dial).psk = (p .accept).psk →
    ∃ sas : List String, sas.length = 7 ∧ rd = .ok { peerId := (p .accept).id, sas } ∧
      ra = .ok { peerId := (p .dial).id, sas }
  refused : ¬ ((p .dial).version = (p .accept).version ∧ (p .dial).psk = (p .accept).psk) →
    (∃ text, rd = .error text) ∧ ∃ text, ra = .error text
  mismatch : (p .dial).version ≠ (p .accept).version →
    rd = .error (Session.mismatch (p .accept).version (p .dial).version) ∧
      ra = .error (Session.mismatch (p .dial).version (p .accept).version)

theorem length_sasLoop (bytes : List UInt8) (missing : Nat) (acc nbits : UInt32) (idx : Nat) :
    (sasLoop bytes missing acc nbits idx).length = missing := by
  induction missing generalizing acc nbits idx with
  | zero => rfl
  | succ missing ih => rw [sasLoop, List.length_cons, ih]

/-- The verdicts agree. -/
theorem agree_verdict (hmac : Bytes 32 → List UInt8 → Bytes 32) (p : Side → Party) :
    Agree p (verdict hmac p .dial) (verdict hmac p .accept) := by
  have htranscript : fullTranscript p .accept = fullTranscript p .dial :=
    fullTranscript_other p .dial
  refine ⟨fun hv hpsk => ?_, fun hne => ?_, fun hv => ?_⟩
  · refine ⟨_, length_sasLoop _ 7 0 0 0, verdict_verified hmac hv hpsk, ?_⟩
    rw [@verdict_verified hmac p .accept hv.symm hpsk.symm, htranscript, ← hpsk]
    rfl
  · by_cases hv : (p .dial).version = (p .accept).version
    · have hpsk : (p .dial).psk ≠ (p .accept).psk := fun h => hne ⟨hv, h⟩
      exact ⟨⟨_, verdict_refused hmac hv hpsk⟩, _, verdict_refused hmac hv.symm hpsk.symm⟩
    · exact ⟨⟨_, verdict_mismatch hmac hv⟩, _, verdict_mismatch hmac (Ne.symm hv)⟩
  · exact ⟨verdict_mismatch hmac hv, verdict_mismatch hmac hv.symm⟩

/-- **Two honest ends agree.** In every run, what both have returned agrees; where nothing can
    happen any more, both have returned; and every schedule in which something happens as long
    as something can leads there, for good. -/
theorem honest_ends_agree (hmac : Bytes 32 → List UInt8 → Bytes 32) (p : Side → Party)
    (htags : (p .dial).psk ≠ (p .accept).psk →
      tag hmac (p .dial).psk (transcript (p .dial).id (p .accept).id (p .dial).nonce
          (p .accept).nonce) ≠
        tag hmac (p .accept).psk (transcript (p .dial).id (p .accept).id (p .dial).nonce
          (p .accept).nonce)) :
    (∀ (events : List Link.Event) (rd ra : Except String Verified),
      (run (Link.step hmac p) (Link.init p) events).result? .dial = some rd →
      (run (Link.step hmac p) (Link.init p) events).result? .accept = some ra → Agree p rd ra) ∧
    (∀ events : List Link.Event,
      AtRest (Link.step hmac p) (run (Link.step hmac p) (Link.init p) events) →
      ∀ side, ((run (Link.step hmac p) (Link.init p) events).result? side).isSome = true) ∧
    ∀ sched : Nat → Link.Event, Live (Link.step hmac p) (Link.init p) sched →
      ∃ t rd ra, Agree p rd ra ∧ ∀ t', t ≤ t' →
        (upTo (Link.step hmac p) (Link.init p) sched t').result? .dial = some rd ∧
        (upTo (Link.step hmac p) (Link.init p) sched t').result? .accept = some ra := by
  have htranscript : fullTranscript p .accept = fullTranscript p .dial :=
    fullTranscript_other p .dial
  have htags' : ∀ side, (p side).psk ≠ (p side.other).psk →
      tag hmac (p side).psk (fullTranscript p side) ≠
        tag hmac (p side.other).psk (fullTranscript p side) := fun side hne => by
    cases side with
    | dial => exact htags hne
    | accept =>
      rw [htranscript]
      exact (htags hne.symm).symm
  have hrun : ∀ events, Link.Inv hmac p (run (Link.step hmac p) (Link.init p) events) :=
    fun events => run_invariant (I := Link.Inv hmac p)
      (fun w e _ h => Link.inv_step htags' h e) Link.inv_init
  have hverdict : ∀ (w : Link) (side : Side) (r : Except String Verified), Link.Inv hmac p w →
      w.result? side = some r → r = verdict hmac p side := fun w side r h hr => by
    obtain ⟨s, hs, hr⟩ := Option.bind_eq_some_iff.mp hr
    obtain ⟨k, hk⟩ := h.holds side s hs
    exact hk.stands.result hr
  have hreturned : ∀ (w : Link), Link.Inv hmac p w → AtRest (Link.step hmac p) w →
      ∀ side, ∃ r, w.result? side = some r := fun w h hrest side => by
    obtain ⟨s, hs, hend⟩ :=
      (Option.any_eq_true _ _).mp (Link.both_ended_of_rest h hrest htags' side)
    obtain ⟨r, hr⟩ := Option.isSome_iff_exists.mp hend
    exact ⟨r, by rw [Link.result?, hs]; exact hr⟩
  refine ⟨fun events rd ra hd ha => ?_, fun events hrest side => ?_, fun sched hlive => ?_⟩
  · rw [hverdict _ _ _ (hrun events) hd, hverdict _ _ _ (hrun events) ha]
    exact agree_verdict hmac p
  · obtain ⟨r, hr⟩ := hreturned _ (hrun events) hrest side
    rw [hr]
    rfl
  · obtain ⟨t, hrest⟩ := hlive.comes_to_rest Link.inv_init (fun w e h => Link.inv_step htags' h e)
      (fun w e h => Link.measure_step h e)
    have hinv : Link.Inv hmac p (upTo (Link.step hmac p) (Link.init p) sched t) := by
      rw [upTo_eq_run]
      exact hrun _
    obtain ⟨rd, hd⟩ := hreturned _ hinv hrest .dial
    obtain ⟨ra, ha⟩ := hreturned _ hinv hrest .accept
    refine ⟨t, rd, ra, ?_, fun t' ht => ?_⟩
    · rw [hverdict _ _ _ hinv hd, hverdict _ _ _ hinv ha]
      exact agree_verdict hmac p
    · rw [hrest.stays ht]
      exact ⟨hd, ha⟩

/-- Two devices of different networks. -/
def strangers (side : Side) : Party where
  id := Bytes.fill 32 (match side with | .dial => 1 | .accept => 2)
  psk := Bytes.fill 32 (match side with | .dial => 8 | .accept => 9)
  version := 1
  nonce := Bytes.fill 32 (match side with | .dial => 10 | .accept => 20)

/-- One round at both ends: some bytes arrive, and the ends go on. -/
def oneRound (n : Nat) : List Link.Event :=
  [.deliver .dial n, .deliver .accept n, .go .accept, .go .dial]

/-- The strangers both return, and refuse each other. -/
theorem honest_ends_agree_strangers : ∃ rd ra,
    (run (Link.step (fun k _ => k) strangers) (Link.init strangers)
      (.accept :: (oneRound 4 ++ oneRound 32 ++ oneRound 32))).result? .dial = some rd ∧
    (run (Link.step (fun k _ => k) strangers) (Link.init strangers)
      (.accept :: (oneRound 4 ++ oneRound 32 ++ oneRound 32))).result? .accept = some ra ∧
    Agree strangers rd ra := by
  have hreturned : ∀ side, ∃ r, (run (Link.step (fun k _ => k) strangers) (Link.init strangers)
      (.accept :: (oneRound 4 ++ oneRound 32 ++ oneRound 32))).result? side = some r :=
    fun side => Option.isSome_iff_exists.mp (by cases side <;> decide +kernel)
  obtain ⟨rd, hd⟩ := hreturned .dial
  obtain ⟨ra, ha⟩ := hreturned .accept
  have hagree := (honest_ends_agree _ strangers fun _ => by decide +kernel).1 _ rd ra hd ha
  exact ⟨rd, ra, hd, ha, hagree⟩

end Nullgate.Admission
