/-
  File:      Nullgate/Mesh/Register.lean
  Subject:   THE CONNECTION TABLE (`engine.rs`): registering, superseding, evicting.

  One end of the mesh holds at most one connection to each peer. `conns` is the table;
  `closed` are the connections that are closed as this end sees them (`close_reason`).

  * `resolveDuplicate`, `register`, `registerMesh` -- the tie-break, the critical section of
    `register_mesh`, and the stretch around it, which closes the loser;
  * `evict`, `sweepOne`, `drain` -- what the close watcher, the tick's sweep and a disconnect
    do to the table;
  * `Tracks`: an open connection is the entry of its peer. Every operation keeps it, the
    sweep's exactly under the condition of `tracks_sweepOne_iff`.
-/
import Mathlib.Order.Lattice
import Nullgate.Roster.Types

namespace Nullgate

/-! ## 1. Connections -/

/-- Which end of a connection this is. -/
inductive Side where
  /-- this end opened it -/
  | client
  | server
  deriving DecidableEq

/-- A connection as one end holds it. -/
structure Conn where
  /-- `stable_id` -/
  id : Nat
  side : Side
  deriving DecidableEq

/-- The connections of one end. -/
structure Mesh where
  conns : Std.ExtTreeMap Id Conn := ∅
  /-- the ids of the connections that have a close reason -/
  closed : List Nat := []

/-- What a registration decided about the connection it was called with. -/
inductive DupVerdict where
  | fresh
  | replaceOld (old : Conn)
  | keepExisting
  deriving DecidableEq

/-- **The tie-break for two connections to one peer**: whether to keep the new one. Of two
    opposite ones the one initiated by the lower id wins. -/
def resolveDuplicate (myId peer : Id) (existingSide : Side) (existingClosed : Bool)
    (newSide : Side) : Bool :=
  if existingClosed then true
  else if existingSide = newSide then true
  else decide (newSide = .client) = decide (myId < peer)

namespace Mesh

def isClosed (m : Mesh) (c : Conn) : Bool := m.closed.contains c.id

/-- `conn.close(..)`. -/
def close (m : Mesh) (c : Conn) : Mesh := { m with closed := c.id :: m.closed }

def insert (m : Mesh) (peer : Id) (c : Conn) : Mesh := { m with conns := m.conns.insert peer c }

def remove (m : Mesh) (peer : Id) : Mesh := { m with conns := m.conns.erase peer }

/-- The critical section of `register_mesh`. -/
def register (myId : Id) (m : Mesh) (peer : Id) (conn : Conn) : Mesh × DupVerdict :=
  match m.conns[peer]? with
  | some existing =>
    if existing.id = conn.id then (m, .keepExisting)
    else if resolveDuplicate myId peer existing.side (m.isClosed existing) conn.side then
      (m.insert peer conn, .replaceOld existing)
    else (m, .keepExisting)
  | none => (m.insert peer conn, .fresh)

/-- **`register_mesh` up to its first await**: decide, and close the loser. -/
def registerMesh (myId : Id) (m : Mesh) (peer : Id) (conn : Conn) : Mesh × DupVerdict :=
  match m.register myId peer conn with
  | (m, .keepExisting) => (m.close conn, .keepExisting)
  | (m, .replaceOld old) => (m.close old, .replaceOld old)
  | (m, .fresh) => (m, .fresh)

/-- What the close watcher does once `conn` has closed: remove the entry, but only if it is
    still this connection. -/
def evict (m : Mesh) (peer : Id) (conn : Conn) : Mesh × Bool :=
  match m.conns[peer]? with
  | some cur => if cur.id = conn.id then (m.remove peer, true) else (m, false)
  | none => (m, false)

/-- One item of the tick's sweep: close the connection of the snapshot, and remove whatever
    the table holds for the peer. -/
def sweepOne (m : Mesh) (peer : Id) (conn : Conn) : Mesh := (m.close conn).remove peer

/-- Take all connections out of the table and close them. -/
def drain (m : Mesh) : Mesh where
  conns := ∅
  closed := m.conns.toList.map (fun (_, c) => c.id) ++ m.closed

/-! ## 2. What the operations do -/

variable {m : Mesh} {myId p q : Id} {c d : Conn}

theorem isClosed_iff : m.isClosed c = true ↔ c.id ∈ m.closed := by
  simp [isClosed]

@[simp] theorem conns_close : (m.close c).conns = m.conns := rfl

theorem closed_close (h : m.isClosed d = true) : (m.close c).isClosed d = true := by
  rw [isClosed_iff] at h ⊢
  exact List.mem_cons_of_mem _ h

@[simp] theorem isClosed_close_self : (m.close c).isClosed c = true := by
  simp [isClosed_iff, close]

theorem isClosed_close_iff :
    (m.close c).isClosed d = true ↔ d.id = c.id ∨ m.isClosed d = true := by
  simp [isClosed_iff, close]

@[simp] theorem isClosed_remove : (m.remove p).isClosed d = m.isClosed d := rfl

theorem conns_insert : (m.insert p c).conns[q]? = if p = q then some c else m.conns[q]? := by
  simp [insert, Std.ExtTreeMap.getElem?_insert]

theorem conns_remove : (m.remove p).conns[q]? = if p = q then none else m.conns[q]? := by
  simp [remove, Std.ExtTreeMap.getElem?_erase]

/-- **The three outcomes of a registration.** -/
theorem registerMesh_cases (myId : Id) (m : Mesh) (p : Id) (c : Conn) :
    (m.conns[p]? = none ∧ m.registerMesh myId p c = (m.insert p c, .fresh)) ∨
    (∃ old, m.conns[p]? = some old ∧ old.id ≠ c.id ∧
      m.registerMesh myId p c = ((m.insert p c).close old, .replaceOld old)) ∨
    (∃ old, m.conns[p]? = some old ∧ m.registerMesh myId p c = (m.close c, .keepExisting)) := by
  unfold registerMesh register
  cases hp : m.conns[p]? with
  | none => exact Or.inl ⟨rfl, rfl⟩
  | some old =>
    right
    by_cases hid : old.id = c.id
    · exact Or.inr ⟨old, rfl, by simp [hid]⟩
    · cases hr : resolveDuplicate myId p old.side (m.isClosed old) c.side with
      | true => exact Or.inl ⟨old, rfl, hid, by simp [hid, hr]⟩
      | false => exact Or.inr ⟨old, rfl, by simp [hid, hr]⟩

/-- A connection that wins is the entry of its peer. -/
theorem registerMesh_conns_self (h : (m.registerMesh myId p c).2 ≠ .keepExisting) :
    (m.registerMesh myId p c).1.conns[p]? = some c := by
  rcases registerMesh_cases myId m p c with ⟨-, he⟩ | ⟨old, -, -, he⟩ | ⟨old, -, he⟩
  · simp [he, conns_insert]
  · simp [he, conns_insert]
  · exact absurd (by rw [he]) h

/-- One that loses is closed, and changes no entry. -/
theorem registerMesh_loser (h : (m.registerMesh myId p c).2 = .keepExisting) :
    m.registerMesh myId p c = (m.close c, .keepExisting) := by
  rcases registerMesh_cases myId m p c with ⟨-, he⟩ | ⟨old, -, -, he⟩ | ⟨old, -, he⟩
  · rw [he] at h
    cases h
  · rw [he] at h
    cases h
  · exact he

/-- A registration touches no other peer's entry. -/
theorem registerMesh_conns_of_ne (h : p ≠ q) :
    (m.registerMesh myId p c).1.conns[q]? = m.conns[q]? := by
  rcases registerMesh_cases myId m p c with ⟨-, he⟩ | ⟨old, -, -, he⟩ | ⟨old, -, he⟩
  · simp [he, conns_insert, h]
  · simp [he, conns_insert, h]
  · simp [he]

/-- An entry was there before, or is the connection that was registered. -/
theorem registerMesh_entry (h : (m.registerMesh myId p c).1.conns[q]? = some d) :
    m.conns[q]? = some d ∨ q = p ∧ d = c := by
  by_cases hpq : p = q
  · subst hpq
    rcases registerMesh_cases myId m p c with ⟨-, he⟩ | ⟨old, -, -, he⟩ | ⟨old, -, he⟩
    · rw [he, conns_insert, if_pos rfl] at h
      exact Or.inr ⟨rfl, (Option.some.inj h).symm⟩
    · rw [he, conns_close, conns_insert, if_pos rfl] at h
      exact Or.inr ⟨rfl, (Option.some.inj h).symm⟩
    · rw [he] at h
      exact Or.inl h
  · exact Or.inl (by rwa [registerMesh_conns_of_ne hpq] at h)

/-- A registration opens nothing again. -/
theorem registerMesh_closed (h : m.isClosed d = true) :
    (m.registerMesh myId p c).1.isClosed d = true := by
  rcases registerMesh_cases myId m p c with ⟨-, he⟩ | ⟨old, -, -, he⟩ | ⟨old, -, he⟩
  · rw [he]
    exact h
  · rw [he]
    exact closed_close h
  · rw [he]
    exact closed_close h

theorem evict_cases (m : Mesh) (p : Id) (c : Conn) :
    (∃ cur, m.conns[p]? = some cur ∧ cur.id = c.id ∧ m.evict p c = (m.remove p, true)) ∨
    ((∀ cur, m.conns[p]? = some cur → cur.id ≠ c.id) ∧ m.evict p c = (m, false)) := by
  unfold evict
  cases hp : m.conns[p]? with
  | none => exact Or.inr ⟨nofun, rfl⟩
  | some cur =>
    by_cases hid : cur.id = c.id
    · exact Or.inl ⟨cur, rfl, hid, by simp [hid]⟩
    · refine Or.inr ⟨fun cur' h => ?_, by simp [hid]⟩
      rwa [← Option.some.inj h]

theorem evict_entry (h : (m.evict p c).1.conns[q]? = some d) : m.conns[q]? = some d := by
  rcases evict_cases m p c with ⟨cur, -, -, he⟩ | ⟨-, he⟩
  · rw [he, conns_remove] at h
    split at h
    · cases h
    · exact h
  · rwa [he] at h

/-- What the watcher leaves in the table is another connection. -/
theorem evict_ne (h : (m.evict p c).1.conns[p]? = some d) : d.id ≠ c.id := by
  rcases evict_cases m p c with ⟨cur, -, -, he⟩ | ⟨hne, he⟩
  · rw [he, conns_remove, if_pos rfl] at h
    cases h
  · rw [he] at h
    exact hne d h

@[simp] theorem isClosed_evict : (m.evict p c).1.isClosed d = m.isClosed d := by
  rcases evict_cases m p c with ⟨cur, -, -, he⟩ | ⟨-, he⟩
  · rw [he, isClosed_remove]
  · rw [he]

@[simp] theorem conns_drain : m.drain.conns[p]? = none := by simp [drain]

theorem isClosed_drain_iff :
    m.drain.isClosed c = true ↔ (∃ (q : Id) (d : Conn), m.conns[q]? = some d ∧ d.id = c.id) ∨
      m.isClosed c = true := by
  simp only [isClosed_iff, drain, List.mem_append, List.mem_map, Prod.exists,
    Std.ExtTreeMap.mem_toList_iff_getElem?_eq_some]

/-! ## 3. Tracked connections -/

/-- **The connection is the entry of its peer as long as it is open.** -/
def Tracks (m : Mesh) (p : Id) (c : Conn) : Prop := m.isClosed c = false → m.conns[p]? = some c

theorem tracks_of_closed (h : m.isClosed c = true) : m.Tracks p c := fun h' => by
  rw [h] at h'
  cases h'

theorem Tracks.close (h : m.Tracks p c) (d : Conn) : (m.close d).Tracks p c := by
  intro hopen
  refine h ?_
  cases hc : m.isClosed c with
  | true => rw [closed_close hc] at hopen; cases hopen
  | false => rfl

theorem tracks_registerMesh_self (myId : Id) (m : Mesh) (p : Id) (c : Conn) :
    (m.registerMesh myId p c).1.Tracks p c := by
  by_cases h : (m.registerMesh myId p c).2 = .keepExisting
  · rw [registerMesh_loser h]
    exact tracks_of_closed isClosed_close_self
  · exact fun _ => registerMesh_conns_self h

theorem Tracks.registerMesh (h : m.Tracks q d) (myId p : Id) (c : Conn) :
    (m.registerMesh myId p c).1.Tracks q d := by
  cases hd : m.isClosed d with
  | true => exact tracks_of_closed (registerMesh_closed hd)
  | false =>
    have hentry := h hd
    by_cases hpq : p = q
    · -- the entry of `p` is `d`: it stays, or it is the one superseded
      subst hpq
      rcases registerMesh_cases myId m p c with ⟨hn, -⟩ | ⟨old, hold, -, he⟩ | ⟨old, -, he⟩
      · rw [hn] at hentry
        cases hentry
      · obtain rfl := Option.some.inj (hold.symm.trans hentry)
        rw [he]
        exact tracks_of_closed isClosed_close_self
      · rw [he]
        exact h.close c
    · exact fun _ => by rw [registerMesh_conns_of_ne hpq, hentry]

/-- The watcher of a closed connection evicts no open one. -/
theorem Tracks.evict (h : m.Tracks q d) (hc : m.isClosed c = true) (p : Id) :
    (m.evict p c).1.Tracks q d := by
  intro hopen
  rw [isClosed_evict] at hopen
  have hentry := h hopen
  rcases evict_cases m p c with ⟨cur, hcur, hid, he⟩ | ⟨-, he⟩
  · rw [he, conns_remove, if_neg, hentry]
    rintro rfl
    obtain rfl := Option.some.inj (hcur.symm.trans hentry)
    rw [isClosed, hid, ← isClosed, hc] at hopen
    cases hopen
  · rw [he]
    exact hentry

theorem Tracks.drain (h : m.Tracks q d) : m.drain.Tracks q d := by
  refine tracks_of_closed (isClosed_drain_iff.mpr ?_)
  cases hd : m.isClosed d with
  | true => exact Or.inr rfl
  | false => exact Or.inl ⟨q, d, h hd, rfl⟩

/-- **The sweep of `p` keeps an open connection tracked exactly when it is not the entry of
    `p`, or it is the connection the sweep closes.** -/
theorem tracks_sweepOne_iff (h : m.Tracks q d) :
    (m.sweepOne p c).Tracks q d ↔ (q = p → m.isClosed d = true ∨ d.id = c.id) := by
  have hclosed : (m.sweepOne p c).isClosed d = true ↔ d.id = c.id ∨ m.isClosed d = true :=
    isClosed_close_iff
  refine ⟨?_, ?_⟩
  · intro ht hqp
    subst hqp
    by_contra hno
    obtain ⟨hopen, hid⟩ := not_or.mp hno
    have hopen' : (m.sweepOne q c).isClosed d = false := by
      cases hc : (m.sweepOne q c).isClosed d with
      | true => exact absurd (hclosed.mp hc) (not_or.mpr ⟨hid, hopen⟩)
      | false => rfl
    have hentry := ht hopen'
    rw [sweepOne, conns_remove, if_pos rfl] at hentry
    cases hentry
  · intro hg hopen
    have hno : ¬ (d.id = c.id ∨ m.isClosed d = true) := fun h' => by
      rw [hclosed.mpr h'] at hopen
      cases hopen
    obtain ⟨hid, hd⟩ := not_or.mp hno
    have hentry := h (by simpa using hd)
    rw [sweepOne, conns_remove, if_neg, conns_close, hentry]
    rintro rfl
    rcases hg rfl with hc | hc
    · exact hd hc
    · exact hid hc

end Mesh

end Nullgate
