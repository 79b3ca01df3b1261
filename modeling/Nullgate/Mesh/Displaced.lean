/-
  File:      Nullgate/Mesh/Displaced.lean
  Subject:   WHO GIVES WAY TO WHOM: an open connection, to one that is closed already.

  A connection may close between its handshake and its registration. `resolve_duplicate` asks
  whether the entry is closed, and never whether the new connection is.

  * `Mesh.DeadLoses`: of a closed connection, registered against an open entry, the tie-break
    decides for the entry;
  * `LostTo`: how an entry that was open can be lost;
  * `dead_displaces_iff`: over every run of the engine, an open entry gives way to an open
    connection, to its own close or to a disconnect, exactly when each registration of a
    closed connection loses its tie-break;
  * `dead_displaces`: two inbound connections, the later of them dead.
-/
import Nullgate.Engine.Stretches

namespace Nullgate

open Nullgate.Lib

/-! ## 1. Registrations -/

namespace Mesh

/-- `c` is the entry of `p`, and open. -/
def Holds (m : Mesh) (p : Id) (c : Conn) : Prop := m.conns[p]? = some c ∧ m.isClosed c = false

instance decidableHolds (m : Mesh) (p : Id) (c : Conn) : Decidable (m.Holds p c) :=
  inferInstanceAs (Decidable (_ ∧ _))

/-- **If `c` is closed, it loses to an open entry of `p`**: the two have opposite sides, and the
    lower id did not open `c`. -/
def DeadLoses (myId : Id) (m : Mesh) (p : Id) (c : Conn) : Prop :=
  m.isClosed c = true → ∀ old ∈ m.conns[p]?, old.id ≠ c.id → m.isClosed old = false →
    old.side ≠ c.side ∧ ¬ (c.side = .client ↔ myId < p)

instance decidableDeadLoses (myId : Id) (m : Mesh) (p : Id) (c : Conn) :
    Decidable (DeadLoses myId m p c) :=
  inferInstanceAs (Decidable (_ → ∀ old ∈ m.conns[p]?, _ → _ → _ ∧ _))

variable {m : Mesh} {myId p q : Id} {c old : Conn}

theorem resolveDuplicate_iff {s s' : Side} {closed : Bool} :
    resolveDuplicate myId p s closed s' = true ↔
      closed = true ∨ s = s' ∨ (s' = .client ↔ myId < p) := by
  unfold resolveDuplicate
  split
  · rename_i h
    exact iff_of_true rfl (Or.inl h)
  · rename_i h
    split
    · rename_i hs
      exact iff_of_true rfl (Or.inr (Or.inl hs))
    · rename_i hs
      rw [decide_eq_true_eq, decide_eq_decide]
      simp [h, hs]

/-- **Which entry a registration replaces.** -/
theorem registerMesh_replaces_iff :
    (m.registerMesh myId p c).2 = .replaceOld old ↔ m.conns[p]? = some old ∧ old.id ≠ c.id ∧
      (m.isClosed old = true ∨ old.side = c.side ∨ (c.side = .client ↔ myId < p)) := by
  rw [← resolveDuplicate_iff]
  unfold registerMesh register
  cases hp : m.conns[p]? with
  | none => simp
  | some cur =>
    by_cases hid : cur.id = c.id
    · simp only [hid, if_true]
      refine iff_of_false nofun ?_
      rintro ⟨hcur, hne, -⟩
      rw [← Option.some.inj hcur] at hne
      exact hne hid
    · cases hr : resolveDuplicate myId p cur.side (m.isClosed cur) c.side with
      | true =>
        simp only [hid, hr, if_true, if_false, DupVerdict.replaceOld.injEq, Option.some.injEq]
        refine ⟨?_, fun h => h.1⟩
        rintro rfl
        exact ⟨rfl, hid, hr⟩
      | false =>
        simp only [hid, hr, if_false, Bool.false_eq_true]
        refine iff_of_false nofun ?_
        rintro ⟨hcur, -, hres⟩
        rw [← Option.some.inj hcur, hr] at hres
        cases hres

/-- The connection that replaces an entry is as open as it was. -/
theorem isClosed_replaced (h : (m.registerMesh myId p c).2 = .replaceOld old) :
    (m.registerMesh myId p c).1.isClosed c = m.isClosed c := by
  rcases registerMesh_cases myId m p c with ⟨-, he⟩ | ⟨cur, -, hid, he⟩ | ⟨cur, -, he⟩
  · rw [he] at h
    cases h
  · rw [he, Bool.eq_iff_iff, isClosed_close_iff]
    exact ⟨fun hc => hc.resolve_left hid.symm, Or.inr⟩
  · rw [he] at h
    cases h

/-- **The condition, by what it is for**: no open entry is replaced by `c`, if `c` is closed. -/
theorem deadLoses_iff :
    DeadLoses myId m p c ↔ ∀ old, m.Holds p old →
      (m.registerMesh myId p c).2 = .replaceOld old → m.isClosed c = false := by
  constructor
  · intro h old hold hrep
    by_contra hc
    obtain ⟨hentry, hid, hwins⟩ := registerMesh_replaces_iff.mp hrep
    have hloses := h (by simpa using hc) old hentry hid hold.2
    rcases hwins with hw | hw | hw
    · rw [hold.2] at hw
      cases hw
    · exact hloses.1 hw
    · exact hloses.2 hw
  · intro h hc old hold hid hopen
    by_contra hno
    have hrep := h old ⟨hold, hopen⟩ (registerMesh_replaces_iff.mpr
      ⟨hold, hid, Or.inr (by rwa [not_and_or, not_not, not_not] at hno)⟩)
    rw [hc] at hrep
    cases hrep

end Mesh

/-! ## 2. The tasks -/

/-- The connection that the task registers in its next stretch. -/
def Task.registering (l : Live) (a : Answers) : Task → Option (Id × Conn)
  | .dial peer => a.dialed.map fun id => (peer, ⟨id, .client⟩)
  | .gate peer id => if l.roster.isMember peer then some (peer, ⟨id, .server⟩) else none
  | _ => none

/-- The task takes connections out of the table on purpose: the tick, enforcing a roster, and a
    disconnect. -/
def Task.tearsDown : Task → Bool
  | .tickFold _ _ | .tickSweep _ _ _ | .disconnect _ => true
  | _ => false

variable {C : Crates} {l : Live} {a : Answers} {t : Task} {p : Id} {old : Conn}

theorem mesh_sweepNext (l : Live) (a : Answers) (roster : Roster) (stale : List (Id × Conn)) :
    (l.sweepNext a roster stale).1.mesh = l.mesh ∨
      ∃ q c, (l.sweepNext a roster stale).1.mesh = l.mesh.sweepOne q c := by
  cases stale with
  | nil => exact Or.inl (Live.mesh_enableOwnTun l a roster)
  | cons x stale => exact Or.inr ⟨x.1, x.2, rfl⟩

/-- **What becomes of the table**: the task registers a connection; or it leaves the table, lets
    the watcher of a closed connection evict it, or takes connections out. -/
theorem mesh_stretch_cases (C : Crates) (l : Live) (a : Answers) (t : Task) :
    (∃ q c, t.registering l a = some (q, c) ∧
      (stretch C l a t).1.mesh = (l.mesh.registerMesh l.myId q c).1) ∨
    t.registering l a = none ∧
      ((stretch C l a t).1.mesh = l.mesh ∨
        (∃ q c, l.mesh.isClosed c = true ∧ (stretch C l a t).1.mesh = (l.mesh.evict q c).1) ∨
        t.tearsDown = true ∧ ((∃ q c, (stretch C l a t).1.mesh = l.mesh.sweepOne q c) ∨
          (stretch C l a t).1.mesh = l.mesh.drain)) := by
  cases t with
  | dial peer =>
    cases hd : a.dialed with
    | some id =>
      refine Or.inl ⟨peer, ⟨id, .client⟩, by simp [Task.registering, hd], ?_⟩
      simp only [stretch, hd]
      rfl
    | none =>
      refine Or.inr ⟨by simp [Task.registering, hd], Or.inl ?_⟩
      simp only [stretch, hd]
  | gate peer id =>
    cases hm : l.roster.isMember peer with
    | true =>
      refine Or.inl ⟨peer, ⟨id, .server⟩, by simp [Task.registering, hm], ?_⟩
      simp only [stretch, Live.gateConn, hm, if_true]
      rfl
    | false =>
      refine Or.inr ⟨by simp [Task.registering, hm], Or.inl ?_⟩
      simp [stretch, Live.gateConn, hm, single]
  | handshake id =>
    refine Or.inr ⟨rfl, Or.inl ?_⟩
    rw [stretch]
    split <;> rfl
  | tickRead nowCoarse =>
    refine Or.inr ⟨rfl, Or.inl ?_⟩
    simp only [stretch, single, Live.readTick]
    split <;> rfl
  | tickFold cfg rebuild =>
    refine Or.inr ⟨rfl, ?_⟩
    rcases l.foldTick_cases C a cfg rebuild with
      ⟨e, -, he⟩ | ⟨roster, -, -, he⟩ | ⟨roster, -, he⟩
    · rw [stretch, he]
      exact Or.inl rfl
    · rw [stretch, he]
      exact Or.inr (Or.inr ⟨rfl, Or.inr rfl⟩)
    · rw [stretch, he]
      refine (mesh_sweepNext _ a roster _).imp id fun h => Or.inr ⟨rfl, Or.inl h⟩
  | tickSweep roster peer stale =>
    refine Or.inr ⟨rfl, ?_⟩
    exact (mesh_sweepNext _ a roster stale).imp id fun h => Or.inr ⟨rfl, Or.inl h⟩
  | watch peer conn =>
    refine Or.inr ⟨rfl, ?_⟩
    simp only [stretch, single, Live.watchConn]
    split
    · rename_i hc
      exact Or.inr (Or.inl ⟨peer, conn, hc, rfl⟩)
    · exact Or.inl rfl
  | disconnect forget => exact Or.inr ⟨rfl, Or.inr (Or.inr ⟨rfl, Or.inr rfl⟩)⟩
  | refreshFold cfg =>
    refine Or.inr ⟨rfl, Or.inl ?_⟩
    simp only [stretch, single, Live.foldRefresh]
    split <;> rfl
  | _ => exact Or.inr ⟨rfl, Or.inl rfl⟩

/-! ## 3. How an open entry is lost -/

/-- The connection that the action registers. -/
def registering (w : World Live Task) : Act Task Answers Outside → Option (Id × Conn)
  | .go k a => w.tasks[k]?.bind (Task.registering w.shared a)
  | _ => none

/-- What the action registers loses to an open entry, if it is closed. -/
def DeadLosesAt (w : World Live Task) (act : Act Task Answers Outside) : Prop :=
  ∀ r ∈ registering w act, Mesh.DeadLoses w.shared.myId w.shared.mesh r.1 r.2

/-- **No open entry is replaced by a closed connection** in the registration that the action
    runs. -/
def ReplacesByOpen (w : World Live Task) (act : Act Task Answers Outside) : Prop :=
  ∀ r ∈ registering w act, ∀ old, w.shared.mesh.Holds r.1 old →
    (w.shared.mesh.registerMesh w.shared.myId r.1 r.2).2 = .replaceOld old →
    w.shared.mesh.isClosed r.2 = false

variable (C) in
/-- **How the action loses an open entry of `p`**: to another open connection, to its own close,
    or to a task that takes it out on purpose. -/
inductive LostTo (w : World Live Task) (act : Act Task Answers Outside) (p : Id) (old : Conn) :
    Prop where
  | superseded (new : Conn) (ne : new.id ≠ old.id)
      (holds : ((engine C).step w act).shared.mesh.Holds p new)
  | closed (entry : ((engine C).step w act).shared.mesh.conns[p]? = some old)
      (closed : ((engine C).step w act).shared.mesh.isClosed old = true)
  | disconnected (none : ((engine C).step w act).shared.mesh.conns[p]? = none)
      (byTask : ∃ k a t, act = .go k a ∧ w.tasks[k]? = some t ∧ t.tearsDown = true)

variable (C) in
/-- Every open entry stays, or is lost in one of these ways. -/
def LosesWell (w : World Live Task) (act : Act Task Answers Outside) : Prop :=
  ∀ p old, w.shared.mesh.Holds p old →
    ((engine C).step w act).shared.mesh.Holds p old ∨ LostTo C w act p old

variable {w : World Live Task} {act : Act Task Answers Outside}

/-- An entry that is still there stays open, or has been closed. -/
theorem holds_or_lost (h : ((engine C).step w act).shared.mesh.conns[p]? = some old) :
    ((engine C).step w act).shared.mesh.Holds p old ∨ LostTo C w act p old := by
  cases hc : ((engine C).step w act).shared.mesh.isClosed old with
  | false => exact Or.inl ⟨h, hc⟩
  | true => exact Or.inr (.closed h hc)

/-- A registration loses an open entry as it should, unless a closed connection wins. -/
theorem losesWell_register {k : Nat} {q : Id} {c : Conn} (hk : w.tasks[k]? = some t)
    (hreg : t.registering w.shared a = some (q, c))
    (hmesh : (stretch C w.shared a t).1.mesh =
      (w.shared.mesh.registerMesh w.shared.myId q c).1)
    (hD : DeadLosesAt w (.go k a)) : LosesWell C w (.go k a) := by
  have hmesh' : ((engine C).step w (.go k a)).shared.mesh =
      (w.shared.mesh.registerMesh w.shared.myId q c).1 := by
    rw [Program.step_go hk]
    exact hmesh
  intro p old hold
  by_cases hpq : q = p
  · subst hpq
    rcases Mesh.registerMesh_cases w.shared.myId w.shared.mesh q c with
      ⟨hn, -⟩ | ⟨cur, hcur, hid, he⟩ | ⟨cur, hcur, he⟩
    · rw [hold.1] at hn
      cases hn
    · -- the entry is replaced: the condition says that the new one is open
      obtain rfl := Option.some.inj (hold.1.symm.trans hcur)
      have hrep : (w.shared.mesh.registerMesh w.shared.myId q c).2 = .replaceOld old := by rw [he]
      have hloses := hD (q, c) (by simp [registering, hk, hreg])
      have hopen : w.shared.mesh.isClosed c = false :=
        Mesh.deadLoses_iff.mp hloses old hold hrep
      refine Or.inr (.superseded c (Ne.symm hid) ?_)
      rw [hmesh']
      exact ⟨Mesh.registerMesh_conns_self (by rw [hrep]; nofun),
        (Mesh.isClosed_replaced hrep).trans hopen⟩
    · refine holds_or_lost ?_
      rw [hmesh', he]
      exact hold.1
  · refine holds_or_lost ?_
    rw [hmesh', Mesh.registerMesh_conns_of_ne hpq]
    exact hold.1

/-- So does every stretch that registers nothing. -/
theorem losesWell_stretch {k : Nat} (hk : w.tasks[k]? = some t)
    (h : (stretch C w.shared a t).1.mesh = w.shared.mesh ∨
      (∃ q c, w.shared.mesh.isClosed c = true ∧
        (stretch C w.shared a t).1.mesh = (w.shared.mesh.evict q c).1) ∨
      t.tearsDown = true ∧
        ((∃ q c, (stretch C w.shared a t).1.mesh = w.shared.mesh.sweepOne q c) ∨
          (stretch C w.shared a t).1.mesh = w.shared.mesh.drain)) :
    LosesWell C w (.go k a) := by
  have hmesh' : ((engine C).step w (.go k a)).shared.mesh = (stretch C w.shared a t).1.mesh := by
    rw [Program.step_go hk]
    rfl
  rw [← hmesh'] at h
  intro p old hold
  rcases h with h | ⟨q, c, hclosed, h⟩ | ⟨ht, ⟨q, c, h⟩ | h⟩
  · rw [h]
    exact Or.inl hold
  · -- a watcher evicts its own connection only, and that one is closed
    refine holds_or_lost ?_
    rw [h]
    rcases Mesh.evict_cases w.shared.mesh q c with ⟨cur, hcur, hid, he⟩ | ⟨-, he⟩
    · rw [he, Mesh.conns_remove, if_neg, hold.1]
      rintro rfl
      obtain rfl := Option.some.inj (hcur.symm.trans hold.1)
      have hopen := hold.2
      rw [Mesh.isClosed, hid, ← Mesh.isClosed, hclosed] at hopen
      cases hopen
    · rw [he, hold.1]
  · by_cases hpq : q = p
    · subst hpq
      refine Or.inr (.disconnected ?_ ⟨k, a, t, rfl, hk, ht⟩)
      rw [h, Mesh.sweepOne, Mesh.conns_remove, if_pos rfl]
    · refine holds_or_lost ?_
      rw [h, Mesh.sweepOne, Mesh.conns_remove, if_neg hpq, Mesh.conns_close, hold.1]
  · refine Or.inr (.disconnected ?_ ⟨k, a, t, rfl, hk, ht⟩)
    rw [h, Mesh.conns_drain]

/-- **A step loses no open entry but as it should**, if what it registers meets the
    condition. -/
theorem losesWell_step (hD : DeadLosesAt w act) : LosesWell C w act := by
  cases act with
  | go k a =>
    cases hk : w.tasks[k]? with
    | none =>
      have he : (engine C).step w (.go k a) = w := by simp [Program.step, hk]
      intro p old hold
      rw [he]
      exact Or.inl hold
    | some t =>
      rcases mesh_stretch_cases C w.shared a t with ⟨q, c, hreg, hmesh⟩ | ⟨-, h⟩
      · exact losesWell_register hk hreg hmesh hD
      · exact losesWell_stretch hk h
  | start t =>
    intro p old hold
    refine Or.inl ?_
    unfold Program.step
    dsimp only
    split <;> exact hold
  | drop k =>
    intro p old hold
    refine Or.inl ?_
    unfold Program.step
    dsimp only
    split <;> exact hold
  | env e =>
    intro p old hold
    cases e with
    | closed id => exact holds_or_lost hold.1
    | _ => exact Or.inl hold

/-- What a registration replaces by an open connection is what the condition allows. -/
theorem replacesByOpen_iff : ReplacesByOpen w act ↔ DeadLosesAt w act :=
  forall₂_congr fun _ _ => Mesh.deadLoses_iff.symm

/-! ## 4. Every run -/

/-- **What gives way to what**, over every run of the engine. (1) Each registration replaces an
    open entry by an open connection only, and each step loses an open entry only to another
    open connection, to its own close or to a deliberate disconnect, exactly when each closed
    connection that is registered against an open entry loses its tie-break. (2) In such a run
    an open entry is there at the end, or a step lost it in one of these ways. -/
theorem dead_displaces_iff (C : Crates) (w : World Live Task)
    (acts : List (Act Task Answers Outside)) :
    (EachStep (engine C).step (fun w act => ReplacesByOpen w act ∧ LosesWell C w act) w acts ↔
      EachStep (engine C).step DeadLosesAt w acts) ∧
    (EachStep (engine C).step DeadLosesAt w acts → ∀ p old, w.shared.mesh.Holds p old →
      (run (engine C).step w acts).shared.mesh.Holds p old ∨
      ∃ pre act post, acts = pre ++ act :: post ∧
        (run (engine C).step w pre).shared.mesh.Holds p old ∧
        LostTo C (run (engine C).step w pre) act p old) := by
  refine ⟨?_, fun hD p old hold => ?_⟩
  · refine eachStep_congr (I := fun _ => True) trivial (fun _ _ _ => trivial) fun w act _ => ?_
    exact ⟨fun h => replacesByOpen_iff.mp h.1,
      fun h => ⟨replacesByOpen_iff.mpr h, losesWell_step h⟩⟩
  · by_cases hend : (run (engine C).step w acts).shared.mesh.Holds p old
    · exact Or.inl hend
    · -- the first step that does not keep the entry
      have hlost := run_brought (s := w) (l := acts)
        (B := fun w => ¬ w.shared.mesh.Holds p old)
        (A := fun w act => w.shared.mesh.Holds p old ∧
          ¬ ((engine C).step w act).shared.mesh.Holds p old)
        (fun w act h => by
          by_cases hw : w.shared.mesh.Holds p old
          · exact Or.inr ⟨hw, h⟩
          · exact Or.inl hw) hend
      obtain ⟨pre, act, post, hacts, hpre, hpost⟩ := hlost.resolve_left (fun h => h hold)
      refine Or.inr ⟨pre, act, post, hacts, hpre, ?_⟩
      have hstep := losesWell_step (C := C) (eachStep_iff.mp hD pre act post hacts)
      exact (hstep p old hpre).resolve_left hpost

/-! ## 5. A dead connection that wins -/

namespace Sample

/-- Device 5 is connected by 15. It connects once more; 25 closes before it passes the gate. -/
def closesEarly : List (Act Task Answers Outside) :=
  online ++ accepts 3 15 5 ++ [.start (.incoming 25), .go 6 {},
    .go 6 { verified := some (key 5) }, .env (.closed 25)]

end Sample

/-- **An open connection replaced by a dead one**: both are inbound, and so the newer wins. -/
theorem dead_displaces :
    ¬ ∀ acts, EachStep (engine .plain).step
      (fun w act => ReplacesByOpen w act ∧ LosesWell .plain w act) Sample.booted acts := by
  intro h
  have hstep := (eachStep_append.mp (h (Sample.closesEarly ++ [.go 6 {}]))).2.1.1
  have hopen := hstep (Sample.key 5, ⟨25, .server⟩) (by decide +kernel) ⟨15, .server⟩
    (by decide +kernel) (by decide +kernel)
  revert hopen
  decide +kernel

end Nullgate
