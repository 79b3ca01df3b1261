/-
  File:      Nullgate/Mesh/Reaching.lean
  Subject:   REACHING A MEMBER (`engine.rs`): ticks, backoff, dial slots and the connection table
             as one.

  A tick dials the members without a connection whose backoff has elapsed, and of these the ones
  that no dial is in flight for; a dial holds its slot to its end. Each of these may hold back a
  dial: a stale snapshot, a failure on record, a slot that is not yet free.

  * `DialerTask`, `dialer` -- the tasks of `Mesh.Connected`, dials under a slot;
  * `slotsHeld_at`: over every run, a taken slot is held by a dial at one of its steps, or by the
    tick about to spawn it;
  * `Undisturbed`, `WithinReach`: from some time on nothing stands between the device and the
    member;
  * `spares_step`, `window_step`: what the calm keeps, of the entry and of the backoff;
  * **`member_connected`**: then the member is connected, from some time on for good.
-/
import Mathlib.Data.Finset.Basic
import Mathlib.Data.Nat.Pairing
import Nullgate.Lib.Fair
import Nullgate.Mesh.Connected

namespace Nullgate

open Nullgate.Lib

/-! ## 1. One device -/

/-- The two tables, and the set of peers with a dial in flight. -/
structure Dialer extends Contacts where
  dialing : Finset Id := ∅

/-- **Where a task stands.** -/
inductive DialerTask where
  /-- a task without a slot -/
  | plain (t : ContactTask)
  /-- the tick in `spawn_dials`, at the head of its loop -/
  | calling (toDial : List Id)
  /-- the slot of `peer` is taken, and its dial not yet spawned -/
  | spawning (peer : Id) (toDial : List Id)
  /-- a dial, under the slot of `peer` -/
  | slot (peer : Id) (t : ContactTask)
  deriving DecidableEq

namespace Dialer

variable (myId : Id)

/-- A stretch that is about the two tables alone. -/
def contact (s : Dialer) (r : ContactReads) (t : ContactTask) (at_ : ContactTask → DialerTask) :
    Dialer × DialerTask × List DialerTask :=
  let (c, t, spawned) := Contacts.stretch myId s.toContacts r t
  ({ s with toContacts := c }, at_ t, spawned.map .plain)

/-- **What a task does next.** -/
def stretch (s : Dialer) (r : ContactReads) : DialerTask → Dialer × DialerTask × List DialerTask
  | .plain (.dialMissing toDial) =>
    (s, .calling (dialBackoffFilter toDial s.dialBackoff r.now), [])
  | .plain t => s.contact myId r t .plain
  | .calling [] => (s, .plain .done, [])
  | .calling (peer :: toDial) =>
    if peer ∈ s.dialing then (s, .calling toDial, [])
    else ({ s with dialing := insert peer s.dialing }, .spawning peer toDial, [])
  | .spawning peer toDial => (s, .calling toDial, [.slot peer (.dialing peer)])
  | .slot peer .done => ({ s with dialing := s.dialing.erase peer }, .plain .done, [])
  | .slot peer t => s.contact myId r t (.slot peer)

end Dialer

namespace DialerTask

def starts : DialerTask → Bool
  | plain t => t.starts
  | _ => false

/-- A dial may time out, and a tick be dropped, but not inside of `spawn_dials`. -/
def timeout : DialerTask → Option DialerTask
  | plain t => t.timeout.map plain
  | slot peer t => t.timeout.map (slot peer)
  | _ => none

/-- The step of a task in the two tables. -/
def contact? : DialerTask → Option ContactTask
  | plain t | slot _ t => some t
  | _ => none

/-- The task holds the slot of `p`. -/
def holds (p : Id) : DialerTask → Prop
  | spawning peer _ | slot peer _ => peer = p
  | _ => False

/-- Under a slot there is a dial of its peer, at one of its steps. -/
def Shaped : DialerTask → Prop
  | slot peer t => t = .dialing peer ∨ (∃ conn, t = .registering true peer conn) ∨
      (∃ conn, t = .recording true peer conn) ∨ (∃ success, t = .outcome peer success) ∨ t = .done
  | _ => True

end DialerTask

/-- **The tasks of one device.** -/
def dialer (myId : Id) : Program Dialer DialerTask ContactReads ContactEvent where
  stretch := Dialer.stretch myId
  starts := DialerTask.starts
  drop := DialerTask.timeout
  env s e := { s with toContacts := s.toContacts.event e }

/-- The device at time `n`. -/
def dialerAt (myId : Id) (sched : Nat → Act DialerTask ContactReads ContactEvent) :
    Nat → World Dialer DialerTask :=
  upTo (dialer myId).step ⟨{}, []⟩ sched

/-! ## 2. Slots -/

section Slots

variable {myId p : Id} {s : Dialer} {w : World Dialer DialerTask} {t : DialerTask}

/-- A registration ends, or stands between the tables. -/
theorem register_cases (myId : Id) (s : Contacts) (dialed : Bool) (peer : Id) (conn : Conn) :
    (s.register myId dialed peer conn).2 = (if dialed then .outcome peer true else .done) ∨
      (s.register myId dialed peer conn).2 = .registering dialed peer conn := by
  unfold Contacts.register
  dsimp only
  split
  · exact Or.inl rfl
  · exact Or.inr rfl

theorem stretch_slot {peer : Id} {t : ContactTask} {r : ContactReads} (h : t ≠ .done) :
    Dialer.stretch myId s r (.slot peer t) = s.contact myId r t (.slot peer) := by
  cases t <;> first | rfl | exact absurd rfl h

theorem stretch_plain {t : ContactTask} {r : ContactReads} (h : ∀ toDial, t ≠ .dialMissing toDial) :
    Dialer.stretch myId s r (.plain t) = s.contact myId r t .plain := by
  cases t <;> first | rfl | exact absurd rfl (h _)

/-- **A dial goes through its steps**, under the slot it was spawned with. -/
theorem shaped_stretch (myId : Id) (r : ContactReads) (h : t.Shaped) :
    (Dialer.stretch myId s r t).2.1.Shaped ∧
      ∀ t' ∈ (Dialer.stretch myId s r t).2.2, t'.Shaped := by
  cases t with
  | plain t =>
    refine ⟨?_, fun t' ht' => ?_⟩
    · cases t <;> exact trivial
    · cases t with
      | dialMissing toDial => cases ht'
      | _ =>
        obtain ⟨t₀, -, rfl⟩ := List.mem_map.mp ht'
        exact trivial
  | calling toDial =>
    cases toDial with
    | nil => exact ⟨trivial, List.forall_mem_nil _⟩
    | cons peer toDial =>
      simp only [Dialer.stretch]
      split
      · exact ⟨trivial, List.forall_mem_nil _⟩
      · exact ⟨trivial, List.forall_mem_nil _⟩
  | spawning peer toDial =>
    refine ⟨trivial, fun t' ht' => ?_⟩
    obtain rfl := List.mem_singleton.mp ht'
    exact Or.inl rfl
  | slot peer t =>
    rcases h with rfl | ⟨conn, rfl⟩ | ⟨conn, rfl⟩ | ⟨success, rfl⟩ | rfl
    · simp only [Dialer.stretch, Dialer.contact, Contacts.stretch]
      cases r.dialed with
      | none => exact ⟨Or.inl rfl, List.forall_mem_nil _⟩
      | some outcome =>
        cases outcome with
        | none => exact ⟨Or.inr (Or.inr (Or.inr (Or.inl ⟨false, rfl⟩))), List.forall_mem_nil _⟩
        | some id =>
          refine ⟨?_, List.forall_mem_nil _⟩
          rcases register_cases myId s.toContacts true peer ⟨id, .client⟩ with he | he
          · exact Or.inr (Or.inr (Or.inr (Or.inl ⟨true, he⟩)))
          · exact Or.inr (Or.inl ⟨_, he⟩)
    · exact ⟨Or.inr (Or.inr (Or.inl ⟨conn, rfl⟩)), List.forall_mem_nil _⟩
    · refine ⟨Or.inr (Or.inr (Or.inr (Or.inl ⟨true, rfl⟩))), fun t' ht' => ?_⟩
      obtain rfl := List.mem_singleton.mp ht'
      exact trivial
    · exact ⟨Or.inr (Or.inr (Or.inr (Or.inr rfl))), List.forall_mem_nil _⟩
    · exact ⟨trivial, List.forall_mem_nil _⟩

theorem shaped_timeout {t' : DialerTask} (hd : t.timeout = some t') (h : t.Shaped) : t'.Shaped := by
  cases t with
  | plain t =>
    obtain ⟨t₀, -, rfl⟩ := Option.map_eq_some_iff.mp hd
    exact trivial
  | slot peer t =>
    obtain ⟨t₀, ht₀, rfl⟩ := Option.map_eq_some_iff.mp hd
    rcases h with rfl | ⟨conn, rfl⟩ | ⟨conn, rfl⟩ | ⟨success, rfl⟩ | rfl
    · obtain rfl := Option.some.inj ht₀
      exact Or.inr (Or.inr (Or.inr (Or.inl ⟨false, rfl⟩)))
    · cases ht₀
    · obtain rfl := Option.some.inj ht₀
      exact Or.inr (Or.inr (Or.inr (Or.inl ⟨false, rfl⟩)))
    · cases ht₀
    · cases ht₀
  | calling toDial => cases hd
  | spawning peer toDial => cases hd

/-- A task that holds the slot keeps it, or hands it on to its dial, or frees it. -/
theorem held_stretch (r : ContactReads) (h : p ∉ s.dialing ∨ t.holds p) :
    p ∉ (Dialer.stretch myId s r t).1.dialing ∨ (Dialer.stretch myId s r t).2.1.holds p ∨
      ∃ t' ∈ (Dialer.stretch myId s r t).2.2, t'.holds p := by
  cases t with
  | plain t =>
    have hfree : p ∉ s.dialing := h.resolve_right id
    cases t <;> exact Or.inl hfree
  | calling toDial =>
    have hfree : p ∉ s.dialing := h.resolve_right id
    cases toDial with
    | nil => exact Or.inl hfree
    | cons peer toDial =>
      simp only [Dialer.stretch]
      split
      · exact Or.inl hfree
      · by_cases hp : peer = p
        · exact Or.inr (Or.inl hp)
        · exact Or.inl fun hmem => (Finset.mem_insert.mp hmem).elim (Ne.symm hp) hfree
  | spawning peer toDial =>
    exact h.imp_right fun hp => Or.inr ⟨_, List.mem_singleton_self _, hp⟩
  | slot peer t =>
    by_cases hdone : t = .done
    · subst hdone
      refine Or.inl fun hmem => ?_
      obtain ⟨hne, hmem⟩ := Finset.mem_erase.mp hmem
      exact h.elim (fun hfree => hfree hmem) fun hp => hne hp.symm
    · rw [stretch_slot hdone]
      exact h.imp_right fun hp => Or.inl hp

/-- **A dial is at one of its steps, and a taken slot is held.** -/
def SlotsHeld (p : Id) (w : World Dialer DialerTask) : Prop :=
  (∀ t ∈ w.tasks, t.Shaped) ∧ w.SeenTo (fun s => p ∉ s.dialing) (DialerTask.holds p)

theorem slotsHeld_step (h : SlotsHeld p w) (a : Act DialerTask ContactReads ContactEvent) :
    SlotsHeld p ((dialer myId).step w a) := by
  obtain ⟨hshaped, hheld⟩ := h
  have hinv : w.Inv (fun _ => True) (fun _ t => t.Shaped) := ⟨trivial, hshaped⟩
  have hinv' : ((dialer myId).step w a).Inv (fun _ => True) (fun _ t => t.Shaped) := by
    refine Program.step_inv hinv (fun k r t _ hk => ?_) (fun t _ ht => ?_)
      (fun t t' => shaped_timeout) fun e _ => ⟨trivial, fun _ h => h⟩
    · obtain ⟨hnext, hspawned⟩ :=
        shaped_stretch myId r (hshaped t (List.mem_of_getElem? hk))
      exact ⟨trivial, hnext, hspawned, fun _ h => h⟩
    · cases t with
      | plain t => exact trivial
      | _ => cases ht
  refine ⟨hinv'.tasks, Program.step_seenTo hheld (fun k r t _ _ => held_stretch r)
    (fun t t' hd hp => ?_) fun e _ hfree => ?_⟩
  · cases t with
    | slot peer t =>
      obtain ⟨t₀, -, rfl⟩ := Option.map_eq_some_iff.mp hd
      exact Or.inr hp
    | spawning peer toDial => cases hd
    | _ => exact hp.elim
  · exact hfree

theorem slotsHeld_at (myId p : Id) (sched : Nat → Act DialerTask ContactReads ContactEvent)
    (n : Nat) : SlotsHeld p (dialerAt myId sched n) := by
  induction n with
  | zero => exact ⟨List.forall_mem_nil _, Or.inl (Finset.notMem_empty p)⟩
  | succ n ih => exact slotsHeld_step ih (sched n)

end Slots

/-! ## 3. The entry of a member -/

namespace Mesh

variable {m : Mesh} {myId p q : Id} {c d : Conn}

/-- The entries have ids of their own. -/
def Distinct (m : Mesh) : Prop :=
  ∀ (p q : Id) (c d : Conn), m.conns[p]? = some c → m.conns[q]? = some d → c.id = d.id → p = q

/-- The entry of `p`, if there is one, is open. -/
def OpenEntry (p : Id) (m : Mesh) : Prop := ∀ c : Conn, m.conns[p]? = some c → m.isClosed c = false

/-- No entry has the id of `c`. -/
def NewId (m : Mesh) (c : Conn) : Prop := ∀ (q : Id) (d : Conn), m.conns[q]? = some d → d.id ≠ c.id

/-- **What the calm leaves of the entry of `p`**: an entry stays one, and open. -/
structure Spares (p : Id) (m m' : Mesh) : Prop where
  opened : m'.OpenEntry p
  stays : (m.conns[p]?).isSome = true → (m'.conns[p]?).isSome = true

theorem distinct_of_entries {m' : Mesh} (h : m.Distinct)
    (hsub : ∀ (q : Id) (d : Conn), m'.conns[q]? = some d → m.conns[q]? = some d) : m'.Distinct :=
  fun p q c d hc hd => h p q c d (hsub p c hc) (hsub q d hd)

theorem distinct_registerMesh (h : m.Distinct) (hnew : m.NewId c) (myId p : Id) :
    (m.registerMesh myId p c).1.Distinct := by
  intro q q' d d' hd hd' hid
  rcases registerMesh_entry hd with hold | ⟨rfl, rfl⟩
  · rcases registerMesh_entry hd' with hold' | ⟨rfl, rfl⟩
    · exact h q q' d d' hold hold' hid
    · exact absurd hid (hnew q d hold)
  · rcases registerMesh_entry hd' with hold' | ⟨rfl, rfl⟩
    · exact absurd hid.symm (hnew q' d' hold')
    · rfl

theorem isClosed_close_of_ne (hid : d.id ≠ c.id) (hd : m.isClosed d = false) :
    (m.close c).isClosed d = false := by
  rw [← Bool.not_eq_true, isClosed_close_iff, not_or, Bool.not_eq_true]
  exact ⟨hid, hd⟩

theorem spares_registerMesh (h : m.OpenEntry p) (hids : m.Distinct) (hnew : m.NewId c) (myId : Id)
    (hc : q = p → m.isClosed c = false) : Spares p m (m.registerMesh myId q c).1 := by
  rcases registerMesh_cases myId m q c with ⟨hnone, he⟩ | ⟨old, hold, hne, he⟩ | ⟨old, hold, he⟩
  · rw [he]
    refine ⟨fun d hd => ?_, fun hsome => ?_⟩
    · rw [conns_insert] at hd
      split at hd
      · obtain rfl := Option.some.inj hd
        exact hc ‹_›
      · exact h d hd
    · rw [conns_insert]
      split
      · rfl
      · exact hsome
  · rw [he]
    refine ⟨fun d hd => ?_, fun hsome => ?_⟩
    · rw [conns_close, conns_insert] at hd
      split at hd
      · obtain rfl := Option.some.inj hd
        exact isClosed_close_of_ne hne.symm (hc ‹_›)
      · exact isClosed_close_of_ne (fun hid => ‹¬ q = p› (hids p q d old hd hold hid).symm) (h d hd)
    · rw [conns_close, conns_insert]
      split
      · rfl
      · exact hsome
  · rw [he]
    exact ⟨fun d hd => isClosed_close_of_ne (hnew p d hd) (h d hd), id⟩

theorem spares_evict (h : m.OpenEntry p) (hc : m.isClosed c = true) (q : Id) :
    Spares p m (m.evict q c).1 := by
  refine ⟨fun d hd => ?_, fun hsome => ?_⟩
  · rw [isClosed_evict]
    exact h d (evict_entry hd)
  · rcases evict_cases m q c with ⟨cur, hcur, hid, he⟩ | ⟨-, he⟩
    · rw [he, conns_remove, if_neg, hsome]
      -- the entry of `p` is open, and what the watcher takes out is closed
      rintro rfl
      have hopen := h cur hcur
      rw [isClosed, hid, ← isClosed, hc] at hopen
      cases hopen
    · rw [he]
      exact hsome

theorem sweepOne_entry (h : (m.sweepOne p c).conns[q]? = some d) : m.conns[q]? = some d := by
  rw [sweepOne, conns_remove] at h
  split at h
  · cases h
  · exact h

theorem spares_sweepOne (h : m.OpenEntry p) (hq : q ≠ p)
    (hid : ∀ d, m.conns[p]? = some d → d.id ≠ c.id) : Spares p m (m.sweepOne q c) := by
  refine ⟨fun d hd => ?_, fun hsome => ?_⟩
  · have hentry := sweepOne_entry hd
    rw [sweepOne, isClosed_remove]
    exact isClosed_close_of_ne (hid d hentry) (h d hentry)
  · rw [sweepOne, conns_remove, if_neg hq]
    exact hsome

end Mesh

/-! ## 4. The calm -/

/-- The connection that a task brings, and its peer. -/
def ContactTask.brings (r : ContactReads) : ContactTask → Option (Id × Conn)
  | dialing peer => r.dialed.join.map fun id => (peer, ⟨id, .client⟩)
  | incoming id => r.verified.map fun peer => (peer, ⟨id, .server⟩)
  | _ => none

/-- A connection that an action brings has an id that no entry has. -/
def BringsNew (w : World Dialer DialerTask) : Act DialerTask ContactReads ContactEvent → Prop
  | .go k r => ∀ t ∈ w.tasks[k]?.bind DialerTask.contact?, ∀ peer conn,
      t.brings r = some (peer, conn) → w.shared.mesh.NewId conn
  | _ => True

/-- **An action that does nothing to `p`**: no disconnect, no dial of it that fails or times out, no
    connection of it that is closed, and no tick that is dropped. -/
def Undisturbed (p : Id) (w : World Dialer DialerTask) :
    Act DialerTask ContactReads ContactEvent → Prop
  | .go k r => ∀ t ∈ w.tasks[k]?.bind DialerTask.contact?,
      t ≠ .draining ∧ t ≠ .outcome p false ∧ (t = .dialing p → r.dialed ≠ some none) ∧
        ∀ conn, t.brings r = some (p, conn) → w.shared.mesh.isClosed conn = false
  | .start _ => True
  | .drop k => ∀ t ∈ w.tasks[k]?, t.timeout = none ∨ ∃ peer t', peer ≠ p ∧ t = .slot peer t'
  | .env (.closed id) => ∀ c, w.shared.mesh.conns[p]? = some c → c.id ≠ id
  | .env (.sweep peer conn) =>
    peer ≠ p ∧ ∀ c, w.shared.mesh.conns[p]? = some c → c.id ≠ conn.id
  | .env _ => True

section Undisturbed

variable {myId p : Id} {c : Contacts} {w : World Dialer DialerTask} {bound : UInt64}
  {a : Act DialerTask ContactReads ContactEvent}

/-- **What a stretch does to the connections.** -/
theorem connections_stretch_cases (myId : Id) (c : Contacts) (r : ContactReads) (t : ContactTask) :
    (Contacts.stretch myId c r t).1.mesh = c.mesh ∨
    (∃ peer conn, t.brings r = some (peer, conn) ∧
      (Contacts.stretch myId c r t).1.mesh = (c.mesh.registerMesh myId peer conn).1) ∨
    (∃ peer conn, c.mesh.isClosed conn = true ∧
      (Contacts.stretch myId c r t).1.mesh = (c.mesh.evict peer conn).1) ∨
    (t = .draining ∧ (Contacts.stretch myId c r t).1.mesh = c.mesh.drain) := by
  cases t with
  | dialing peer =>
    simp only [Contacts.stretch, ContactTask.brings]
    rcases r.dialed with _ | _ | id
    · exact Or.inl rfl
    · exact Or.inl rfl
    · exact Or.inr (Or.inl ⟨peer, ⟨id, .client⟩, rfl, rfl⟩)
  | incoming id =>
    simp only [Contacts.stretch, ContactTask.brings]
    cases r.verified with
    | none => exact Or.inl rfl
    | some peer => exact Or.inr (Or.inl ⟨peer, ⟨id, .server⟩, rfl, rfl⟩)
  | watching peer conn =>
    simp only [Contacts.stretch, Contacts.watch]
    split
    · exact Or.inr (Or.inr (Or.inl ⟨peer, conn, ‹_›, rfl⟩))
    · exact Or.inl rfl
  | draining => exact Or.inr (Or.inr (Or.inr ⟨rfl, rfl⟩))
  | _ => exact Or.inl rfl

theorem window_reset {backoff : DialBackoff} (h : ∀ e ∈ backoff p, e.nextOkMs ≤ bound)
    (peer : Id) : ∀ e ∈ resetDialBackoff backoff peer p, e.nextOkMs ≤ bound := by
  by_cases hp : peer = p
  · rw [hp, reset_self]
    exact nofun
  · rwa [show resetDialBackoff backoff peer p = backoff p from BackoffCall.reset_of_ne hp]

/-- A stretch that records no failure of `p` moves its window no further out. -/
theorem window_stretch (h : ∀ e ∈ c.dialBackoff p, e.nextOkMs ≤ bound) (r : ContactReads)
    {t : ContactTask} (ht : t ≠ .outcome p false) :
    ∀ e ∈ (Contacts.stretch myId c r t).1.dialBackoff p, e.nextOkMs ≤ bound := by
  cases t with
  | dialing peer =>
    simp only [Contacts.stretch]
    rcases r.dialed with _ | _ | id <;> exact h
  | incoming id =>
    simp only [Contacts.stretch]
    cases r.verified <;> exact h
  | registering dialed peer conn => exact window_reset h peer
  | outcome peer success =>
    cases success with
    | true => exact window_reset h peer
    | false =>
      have hp : peer ≠ p := fun hp => ht (by rw [hp])
      have hsame : (Contacts.stretch myId c r (.outcome peer false)).1.dialBackoff p =
          c.dialBackoff p := BackoffCall.record_of_ne hp
      rwa [hsame]
  | watching peer conn =>
    simp only [Contacts.stretch, Contacts.watch]
    split <;> exact h
  | disconnect => exact nofun
  | _ => exact h

/-- A stretch does to the two tables what its step in them does, or nothing. -/
theorem tables_stretch_cases (myId : Id) (s : Dialer) (r : ContactReads) (t : DialerTask) :
    (Dialer.stretch myId s r t).1.toContacts = s.toContacts ∨
    ∃ t₀, t.contact? = some t₀ ∧
      (Dialer.stretch myId s r t).1.toContacts = (Contacts.stretch myId s.toContacts r t₀).1 := by
  cases t with
  | plain t =>
    by_cases hmissing : ∃ toDial, t = .dialMissing toDial
    · obtain ⟨toDial, rfl⟩ := hmissing
      exact Or.inl rfl
    · exact Or.inr ⟨t, rfl, by rw [stretch_plain (not_exists.mp hmissing)]; rfl⟩
  | slot peer t =>
    by_cases hdone : t = .done
    · exact Or.inl (by rw [hdone]; rfl)
    · exact Or.inr ⟨t, rfl, by rw [stretch_slot hdone]; rfl⟩
  | calling toDial =>
    left
    cases toDial with
    | nil => rfl
    | cons peer toDial =>
      simp only [Dialer.stretch]
      split <;> rfl
  | spawning peer toDial => exact Or.inl rfl

/-- **What an action does to the two tables**, it does by a task in them, or from outside. -/
theorem tables_step_cases (myId : Id) (w : World Dialer DialerTask)
    (a : Act DialerTask ContactReads ContactEvent) :
    ((dialer myId).step w a).shared.toContacts = w.shared.toContacts ∨
    (∃ k r t, a = .go k r ∧ w.tasks[k]?.bind DialerTask.contact? = some t ∧
      ((dialer myId).step w a).shared.toContacts =
        (Contacts.stretch myId w.shared.toContacts r t).1) ∨
    ∃ e, a = .env e ∧
      ((dialer myId).step w a).shared.toContacts = w.shared.toContacts.event e := by
  rcases (dialer myId).step_cases w a with ⟨-, -, he⟩ | ⟨k, r, t, rfl, hk, he⟩ | ⟨t, -, -, he⟩ |
    ⟨k, t, t', -, -, -, he⟩ | ⟨e, rfl, he⟩
  · exact Or.inl (by rw [he])
  · rw [he]
    rcases tables_stretch_cases myId w.shared r t with hs | ⟨t₀, ht₀, hs⟩
    · exact Or.inl hs
    · exact Or.inr (Or.inl ⟨k, r, t₀, rfl, by rw [hk]; exact ht₀, hs⟩)
  · exact Or.inl (by rw [he])
  · exact Or.inl (by rw [he])
  · exact Or.inr (Or.inr ⟨e, rfl, by rw [he]; rfl⟩)

/-- **The entries keep ids of their own.** -/
theorem distinctIds_step (h : w.shared.mesh.Distinct) (hnew : BringsNew w a) :
    ((dialer myId).step w a).shared.mesh.Distinct := by
  rcases tables_step_cases myId w a with he | ⟨k, r, t, rfl, hk, he⟩ | ⟨e, rfl, he⟩
  · rwa [he]
  · rw [he]
    rcases connections_stretch_cases myId w.shared.toContacts r t with hm |
      ⟨peer, conn, hb, hm⟩ | ⟨peer, conn, -, hm⟩ | ⟨-, hm⟩
    · rwa [hm]
    · rw [hm]
      exact Mesh.distinct_registerMesh h (hnew t hk peer conn hb) myId peer
    · rw [hm]
      exact Mesh.distinct_of_entries h fun q d => Mesh.evict_entry
    · rw [hm]
      exact Mesh.distinct_of_entries h fun q d hd => by rw [Mesh.conns_drain] at hd; cases hd
  · rw [he]
    cases e with
    | kick peer =>
      unfold Contacts.event Contacts.kick
      dsimp only
      split <;> exact h
    | sweep peer conn => exact Mesh.distinct_of_entries h fun q d => Mesh.sweepOne_entry
    | _ => exact h

/-- **In the calm the entry of `p` stays, and open.** -/
theorem spares_step (h : w.shared.mesh.OpenEntry p) (hids : w.shared.mesh.Distinct)
    (hnew : BringsNew w a) (hcalm : Undisturbed p w a) :
    Mesh.Spares p w.shared.mesh ((dialer myId).step w a).shared.mesh := by
  rcases tables_step_cases myId w a with he | ⟨k, r, t, rfl, hk, he⟩ | ⟨e, rfl, he⟩
  · rw [he]
    exact ⟨h, id⟩
  · obtain ⟨hdrain, -, -, hopen⟩ := hcalm t hk
    rw [he]
    rcases connections_stretch_cases myId w.shared.toContacts r t with hm |
      ⟨peer, conn, hb, hm⟩ | ⟨peer, conn, hc, hm⟩ | ⟨ht, -⟩
    · rw [hm]
      exact ⟨h, id⟩
    · rw [hm]
      exact Mesh.spares_registerMesh h hids (hnew t hk peer conn hb) myId
        fun hp => hopen conn (hp ▸ hb)
    · rw [hm]
      exact Mesh.spares_evict h hc peer
    · exact absurd ht hdrain
  · rw [he]
    cases e with
    | closed id =>
      refine ⟨fun c hc => ?_, fun hsome => hsome⟩
      exact Mesh.isClosed_close_of_ne (c := ⟨id, .client⟩) (hcalm c hc) (h c hc)
    | kick peer =>
      unfold Contacts.event Contacts.kick
      dsimp only
      split <;> exact ⟨h, id⟩
    | sweep peer conn =>
      obtain ⟨hne, hid⟩ := hcalm
      exact Mesh.spares_sweepOne h hne hid
    | _ => exact ⟨h, id⟩

/-- **In the calm the window of `p` moves no further out.** -/
theorem window_step (h : ∀ e ∈ w.shared.dialBackoff p, e.nextOkMs ≤ bound)
    (hcalm : Undisturbed p w a) :
    ∀ e ∈ ((dialer myId).step w a).shared.dialBackoff p, e.nextOkMs ≤ bound := by
  rcases tables_step_cases myId w a with he | ⟨k, r, t, rfl, hk, he⟩ | ⟨e, -, he⟩
  · rwa [he]
  · obtain ⟨-, hfail, -, -⟩ := hcalm t hk
    rw [he]
    exact window_stretch h r hfail
  · rw [he]
    cases e with
    | heartbeat peer => exact window_reset h peer
    | kick peer =>
      unfold Contacts.event Contacts.kick
      dsimp only
      split
      · exact window_reset h peer
      · exact h
    | networkChanged =>
      intro e' he'
      obtain ⟨e₀, -, rfl⟩ := Option.map_eq_some_iff.mp he'
      exact UInt64.le_iff_toNat_le.mpr (Nat.zero_le _)
    | _ => exact h

end Undisturbed

/-! ## 5. Reaching a member -/

/-- **From time `T` on nothing stands between the device and `p`**, and it goes about its work. -/
structure WithinReach (myId p : Id) (sched : Nat → Act DialerTask ContactReads ContactEvent)
    (T : Nat) : Prop where
  /-- a connection has an id of its own -/
  ids : ∀ n, BringsNew (dialerAt myId sched n) (sched n)
  /-- the table holds no closed connection of `p` -/
  opened : (dialerAt myId sched T).shared.mesh.OpenEntry p
  calm : ∀ n, T ≤ n → Undisturbed p (dialerAt myId sched n) (sched n)
  /-- every task is run again and again -/
  fair : ∀ k N, ∃ n, N ≤ n ∧ ∃ r, sched n = .go k r
  /-- a dial of `p` ends, with a connection -/
  answered : ∀ k N, T ≤ N →
    (dialerAt myId sched N).tasks[k]? = some (.slot p (.dialing p)) →
      ∃ n, N ≤ n ∧ ∃ r, sched n = .go k r ∧ ∃ id, r.dialed = some (some id)
  /-- ticks that have `p` among the members keep coming -/
  ticks : ∀ N, ∃ n, N ≤ n ∧ ∃ members, p ∈ members ∧ sched n = .start (.plain (.tick members))
  /-- the clock passes the window of `p` -/
  clock : ∀ e ∈ (dialerAt myId sched T).shared.dialBackoff p,
    ∃ N, ∀ n k r, N ≤ n → sched n = .go k r → e.nextOkMs ≤ r.now

section WithinReach

variable {myId p : Id} {sched : Nat → Act DialerTask ContactReads ContactEvent} {T N k : Nat}

theorem WithinReach.distinct (h : WithinReach myId p sched T) (n : Nat) :
    (dialerAt myId sched n).shared.mesh.Distinct := by
  induction n with
  | zero =>
    intro q q' c d hc
    simp [dialerAt, upTo] at hc
  | succ n ih => exact distinctIds_step ih (h.ids n)

/-- **An entry of `p` is open**, at any time from `T` on. -/
theorem WithinReach.opened_at (h : WithinReach myId p sched T) {n : Nat} (hn : T ≤ n) :
    (dialerAt myId sched n).shared.mesh.OpenEntry p := by
  induction n, hn using Nat.le_induction with
  | base => exact h.opened
  | succ n hn ih => exact (spares_step ih (h.distinct n) (h.ids n) (h.calm n hn)).opened

/-- **And it stays.** -/
theorem WithinReach.stays (h : WithinReach myId p sched T) (hN : T ≤ N)
    (hsome : ((dialerAt myId sched N).shared.mesh.conns[p]?).isSome = true) {n : Nat}
    (hn : N ≤ n) : ((dialerAt myId sched n).shared.mesh.conns[p]?).isSome = true := by
  induction n, hn using Nat.le_induction with
  | base => exact hsome
  | succ n hn ih =>
    have hT : T ≤ n := Nat.le_trans hN hn
    exact (spares_step (h.opened_at hT) (h.distinct n) (h.ids n) (h.calm n hT)).stays ih

/-- The window of `p` lies where it lay at `T`, or nearer. -/
theorem WithinReach.window_at (h : WithinReach myId p sched T) {bound : UInt64}
    (hbound : ∀ e ∈ (dialerAt myId sched T).shared.dialBackoff p, e.nextOkMs ≤ bound) {n : Nat}
    (hn : T ≤ n) : ∀ e ∈ (dialerAt myId sched n).shared.dialBackoff p, e.nextOkMs ≤ bound := by
  induction n, hn using Nat.le_induction with
  | base => exact hbound
  | succ n hn ih => exact window_step ih (h.calm n hn)

/-- **The window of `p` elapses.** -/
theorem WithinReach.window_elapses (h : WithinReach myId p sched T) :
    ∃ N, T ≤ N ∧ ∀ n k r, N ≤ n → sched n = .go k r →
      ∀ e ∈ (dialerAt myId sched n).shared.dialBackoff p, e.nextOkMs ≤ r.now := by
  cases he : (dialerAt myId sched T).shared.dialBackoff p with
  | none =>
    refine ⟨T, Nat.le_refl T, fun n k r hn _ => h.window_at ?_ hn⟩
    rw [he]
    exact nofun
  | some e =>
    obtain ⟨N, hN⟩ := h.clock e he
    refine ⟨max T N, Nat.le_max_left _ _, fun n k r hn hgo => h.window_at ?_ (by omega)⟩
    rw [he]
    intro e' he'
    obtain rfl := Option.some.inj he'
    exact hN n k r (by omega) hgo

/-- **Behind a stretch**: where the task stands, what it has changed, and what it has spawned. -/
theorem dialerAt_succ {n : Nat} {r : ContactReads} {t : DialerTask} (hgo : sched n = .go k r)
    (hk : (dialerAt myId sched n).tasks[k]? = some t) :
    (dialerAt myId sched (n + 1)).tasks[k]? =
        some (Dialer.stretch myId (dialerAt myId sched n).shared r t).2.1 ∧
      (dialerAt myId sched (n + 1)).shared =
        (Dialer.stretch myId (dialerAt myId sched n).shared r t).1 ∧
      ∀ t' ∈ (Dialer.stretch myId (dialerAt myId sched n).shared r t).2.2,
        t' ∈ (dialerAt myId sched (n + 1)).tasks := by
  have hstep : dialerAt myId sched (n + 1) =
      (dialer myId).step (dialerAt myId sched n) (.go k r) := by rw [← hgo]; rfl
  rw [hstep]
  refine ⟨Program.getElem?_step_go hk r, ?_, fun t' ht' => ?_⟩
  · rw [Program.step_go hk]
    rfl
  · rw [Program.step_go hk]
    exact List.mem_append_right _ ht'

/-- **A task is run** from where it stands, unless it is a dial of another. -/
theorem WithinReach.runs (h : WithinReach myId p sched T) (hN : T ≤ N) {t : DialerTask}
    (hk : (dialerAt myId sched N).tasks[k]? = some t)
    (ht : ∀ peer t', peer ≠ p → t ≠ .slot peer t') :
    ∃ n r, N ≤ n ∧ sched n = .go k r ∧ (dialerAt myId sched n).tasks[k]? = some t :=
  Program.eventually_runs_any hk (fun n hn hthere hd => by
    have hcalm := h.calm n (Nat.le_trans hN hn)
    rw [hd] at hcalm
    exact (hcalm t hthere).resolve_right fun ⟨peer, t', hne, he⟩ => ht peer t' hne he)
    (h.fair k N)

theorem isSome_registerMesh (m : Mesh) (conn : Conn) :
    ((m.registerMesh myId p conn).1.conns[p]?).isSome = true := by
  rcases Mesh.registerMesh_cases myId m p conn with ⟨-, he⟩ | ⟨old, -, -, he⟩ | ⟨old, hold, he⟩
  · simp [he, Mesh.conns_insert]
  · simp [he, Mesh.conns_insert]
  · simp [he, hold]

/-- **A dial of `p` connects it.** -/
theorem WithinReach.connects_of_dialing (h : WithinReach myId p sched T) (hN : T ≤ N)
    (hk : (dialerAt myId sched N).tasks[k]? = some (.slot p (.dialing p))) :
    ∃ n, N ≤ n ∧ ((dialerAt myId sched n).shared.mesh.conns[p]?).isSome = true := by
  obtain ⟨m, hm, r, hgo, hid⟩ := h.answered k N hN hk
  obtain ⟨n, r, hn, hgo, ⟨id, hid⟩, hthere⟩ := Program.eventually_runs
    (A := fun r => ∃ id, r.dialed = some (some id)) hk
    (fun n hn hthere hd => by
      have hcalm := h.calm n (Nat.le_trans hN hn)
      rw [hd] at hcalm
      refine (hcalm _ hthere).resolve_right fun ⟨peer, t', hne, he⟩ => ?_
      exact hne (DialerTask.slot.inj he).1.symm)
    (fun n r hn (hthere : (dialerAt myId sched n).tasks[k]? = _) hgo hno => by
      -- a poll that is pending; the dial does not fail
      have hcalm := h.calm n (Nat.le_trans hN hn)
      rw [hgo] at hcalm
      obtain ⟨-, -, hfail, -⟩ := hcalm (.dialing p) (by rw [hthere]; rfl)
      have hpending : r.dialed = none := by
        rcases hr : r.dialed with _ | _ | id
        · rfl
        · exact absurd hr (hfail rfl)
        · exact absurd ⟨id, hr⟩ hno
      show (Dialer.stretch myId _ r (.slot p (.dialing p))).2.1 = _
      simp only [Dialer.stretch, Dialer.contact, Contacts.stretch, hpending])
    ⟨m, hm, r, hgo, hid⟩
  refine ⟨n + 1, by omega, ?_⟩
  obtain ⟨-, hshared, -⟩ := dialerAt_succ hgo hthere
  rw [hshared]
  simp only [Dialer.stretch, Dialer.contact, Contacts.stretch, hid]
  exact isSome_registerMesh _ _

/-- Where its slot is taken for it, `p` is dialed. -/
theorem WithinReach.connects_of_spawning (h : WithinReach myId p sched T) (hN : T ≤ N)
    {toDial : List Id} (hk : (dialerAt myId sched N).tasks[k]? = some (.spawning p toDial)) :
    ∃ n, N ≤ n ∧ ((dialerAt myId sched n).shared.mesh.conns[p]?).isSome = true := by
  obtain ⟨n, r, hn, hgo, hthere⟩ := h.runs hN hk (fun _ _ _ => nofun)
  obtain ⟨-, -, hspawned⟩ := dialerAt_succ hgo hthere
  obtain ⟨j, hj⟩ := List.mem_iff_getElem?.mp (hspawned _ (List.mem_singleton_self _))
  obtain ⟨m, hm, hsome⟩ := h.connects_of_dialing (by omega) hj
  exact ⟨m, by omega, hsome⟩

variable (myId p sched T k) in
/-- The slot of `p` gets free, where the task at `k` stands at `t` under it. -/
def Freed (t : ContactTask) : Prop :=
  ∀ N, T ≤ N → (dialerAt myId sched N).tasks[k]? = some (.slot p t) →
    ∃ n, N ≤ n ∧ p ∉ (dialerAt myId sched n).shared.dialing

theorem WithinReach.runs_slot (h : WithinReach myId p sched T) (hN : T ≤ N) {t : ContactTask}
    (hk : (dialerAt myId sched N).tasks[k]? = some (.slot p t)) :
    ∃ n r, N ≤ n ∧ sched n = .go k r ∧ (dialerAt myId sched n).tasks[k]? = some (.slot p t) :=
  h.runs hN hk fun _ _ hne he => hne (DialerTask.slot.inj he).1.symm

theorem WithinReach.freed_of_next (h : WithinReach myId p sched T) {t t' : ContactTask}
    (hnext : ∀ s r, (Dialer.stretch myId s r (.slot p t)).2.1 = .slot p t')
    (ht' : Freed myId p sched T k t') : Freed myId p sched T k t := by
  intro N hN hk
  obtain ⟨n, r, hn, hgo, hthere⟩ := h.runs_slot hN hk
  obtain ⟨hnow, -, -⟩ := dialerAt_succ hgo hthere
  rw [hnext] at hnow
  obtain ⟨m, hm, hfree⟩ := ht' (n + 1) (by omega) hnow
  exact ⟨m, by omega, hfree⟩

theorem WithinReach.freed_done (h : WithinReach myId p sched T) : Freed myId p sched T k .done := by
  intro N hN hk
  obtain ⟨n, r, hn, hgo, hthere⟩ := h.runs_slot hN hk
  obtain ⟨-, hshared, -⟩ := dialerAt_succ hgo hthere
  refine ⟨n + 1, by omega, ?_⟩
  rw [hshared]
  exact Finset.notMem_erase p _

/-- **The slot of `p` gets free, or `p` is connected**, whatever holds the slot. -/
theorem WithinReach.frees (h : WithinReach myId p sched T) (hN : T ≤ N) :
    ∃ n, N ≤ n ∧ (((dialerAt myId sched n).shared.mesh.conns[p]?).isSome = true ∨
      p ∉ (dialerAt myId sched n).shared.dialing) := by
  obtain ⟨hshaped, hfree | ⟨t, ht, hp⟩⟩ := slotsHeld_at myId p sched N
  · exact ⟨N, Nat.le_refl N, Or.inr hfree⟩
  · obtain ⟨k, hk⟩ := List.mem_iff_getElem?.mp ht
    cases t with
    | spawning peer toDial =>
      obtain rfl : peer = p := hp
      obtain ⟨n, hn, hsome⟩ := h.connects_of_spawning hN hk
      exact ⟨n, hn, Or.inl hsome⟩
    | slot peer t =>
      obtain rfl : peer = p := hp
      have houtcome : ∀ success, Freed myId peer sched T k (.outcome peer success) :=
        fun success => h.freed_of_next (fun _ _ => rfl) h.freed_done
      have hrecording : ∀ conn, Freed myId peer sched T k (.recording true peer conn) :=
        fun conn => h.freed_of_next (fun _ _ => rfl) (houtcome true)
      rcases hshaped _ ht with rfl | ⟨conn, rfl⟩ | ⟨conn, rfl⟩ | ⟨success, rfl⟩ | rfl
      · obtain ⟨n, hn, hsome⟩ := h.connects_of_dialing hN hk
        exact ⟨n, hn, Or.inl hsome⟩
      · obtain ⟨n, hn, hfree⟩ := h.freed_of_next (fun _ _ => rfl) (hrecording conn) N hN hk
        exact ⟨n, hn, Or.inr hfree⟩
      · obtain ⟨n, hn, hfree⟩ := hrecording conn N hN hk
        exact ⟨n, hn, Or.inr hfree⟩
      · obtain ⟨n, hn, hfree⟩ := houtcome success N hN hk
        exact ⟨n, hn, Or.inr hfree⟩
      · obtain ⟨n, hn, hfree⟩ := h.freed_done N hN hk
        exact ⟨n, hn, Or.inr hfree⟩
    | _ => exact hp.elim

/-- A slot is taken by a task that then holds it, about to spawn its dial. -/
theorem dialing_step (myId : Id) {w : World Dialer DialerTask} (hfree : p ∉ w.shared.dialing)
    (a : Act DialerTask ContactReads ContactEvent) :
    p ∉ ((dialer myId).step w a).shared.dialing ∨
      ∃ toDial, .spawning p toDial ∈ ((dialer myId).step w a).tasks := by
  rcases (dialer myId).step_cases w a with ⟨-, -, he⟩ | ⟨k, r, t, rfl, hk, he⟩ | ⟨t, -, -, he⟩ |
    ⟨k, t, t', -, -, -, he⟩ | ⟨e, -, he⟩
  · exact Or.inl (by rwa [he])
  · rw [he]
    cases t with
    | plain t => cases t <;> exact Or.inl hfree
    | calling toDial =>
      cases toDial with
      | nil => exact Or.inl hfree
      | cons peer toDial =>
        by_cases hmem : peer ∈ w.shared.dialing
        · left
          show p ∉ (Dialer.stretch myId w.shared r (.calling (peer :: toDial))).1.dialing
          rwa [Dialer.stretch, if_pos hmem]
        · by_cases hp : peer = p
          · subst hp
            refine Or.inr ⟨toDial, (mem_stretch_iff hk).mpr (Or.inl ?_)⟩
            show _ = (Dialer.stretch myId w.shared r (.calling (peer :: toDial))).2.1
            rw [Dialer.stretch, if_neg hmem]
          · left
            show p ∉ (Dialer.stretch myId w.shared r (.calling (peer :: toDial))).1.dialing
            rw [Dialer.stretch, if_neg hmem]
            exact fun hin => (Finset.mem_insert.mp hin).elim (Ne.symm hp) hfree
    | spawning peer toDial => exact Or.inl hfree
    | slot peer t =>
      cases t <;> first
        | exact Or.inl hfree
        | exact Or.inl fun hin => hfree (Finset.mem_erase.mp hin).2
  · exact Or.inl (by rwa [he])
  · exact Or.inl (by rwa [he])
  · exact Or.inl (by rw [he]; exact hfree)

/-- **A slot that is free stays free**, or `p` is connected. -/
theorem WithinReach.stays_free (h : WithinReach myId p sched T) (hN : T ≤ N)
    (hfree : p ∉ (dialerAt myId sched N).shared.dialing)
    (hno : ∀ n, T ≤ n → (dialerAt myId sched n).shared.mesh.conns[p]? = none) {n : Nat}
    (hn : N ≤ n) : p ∉ (dialerAt myId sched n).shared.dialing := by
  induction n, hn using Nat.le_induction with
  | base => exact hfree
  | succ n hn ih =>
    refine (dialing_step myId ih (sched n)).resolve_right fun ⟨toDial, hmem⟩ => ?_
    obtain ⟨k, hk⟩ := List.mem_iff_getElem?.mp hmem
    obtain ⟨m, hm, hsome⟩ := h.connects_of_spawning (N := n + 1) (by omega) hk
    rw [hno m (by omega)] at hsome
    cases hsome

/-- **A tick that has got to its dials dials `p`**, if the slot of `p` stays free. -/
theorem WithinReach.connects_of_calling (h : WithinReach myId p sched T) {toDial : List Id}
    (hp : p ∈ toDial) : ∀ N, T ≤ N →
    (∀ n, N ≤ n → p ∉ (dialerAt myId sched n).shared.dialing) →
    (dialerAt myId sched N).tasks[k]? = some (.calling toDial) →
    ∃ n, N ≤ n ∧ ((dialerAt myId sched n).shared.mesh.conns[p]?).isSome = true := by
  induction toDial with
  | nil => cases hp
  | cons peer toDial ih =>
    intro N hN hfree hk
    obtain ⟨n, r, hn, hgo, hthere⟩ := h.runs hN hk (fun _ _ _ => nofun)
    obtain ⟨hnow, -, -⟩ := dialerAt_succ hgo hthere
    by_cases hpeer : peer = p
    · subst hpeer
      rw [Dialer.stretch, if_neg (hfree n hn)] at hnow
      obtain ⟨m, hm, hsome⟩ := h.connects_of_spawning (N := n + 1) (by omega) hnow
      exact ⟨m, by omega, hsome⟩
    · have hrest : p ∈ toDial := (List.mem_cons.mp hp).resolve_left (Ne.symm hpeer)
      by_cases hmem : peer ∈ (dialerAt myId sched n).shared.dialing
      · rw [Dialer.stretch, if_pos hmem] at hnow
        obtain ⟨m, hm, hsome⟩ :=
          ih hrest (n + 1) (by omega) (fun m hm => hfree m (by omega)) hnow
        exact ⟨m, by omega, hsome⟩
      · -- another is dialed first
        rw [Dialer.stretch, if_neg hmem] at hnow
        obtain ⟨n', r', hn', hgo', hthere'⟩ :=
          h.runs (N := n + 1) (by omega) hnow (fun _ _ _ => nofun)
        obtain ⟨hnow', -, -⟩ := dialerAt_succ hgo' hthere'
        obtain ⟨m, hm, hsome⟩ :=
          ih hrest (n' + 1) (by omega) (fun m hm => hfree m (by omega)) hnow'
        exact ⟨m, by omega, hsome⟩

/-- **Some time `p` is connected.** -/
theorem WithinReach.connects (h : WithinReach myId p sched T) (hp : p ≠ myId) :
    ∃ n, T ≤ n ∧ ((dialerAt myId sched n).shared.mesh.conns[p]?).isSome = true := by
  by_contra hnever
  have hno : ∀ n, T ≤ n → (dialerAt myId sched n).shared.mesh.conns[p]? = none := fun n hn => by
    cases hc : (dialerAt myId sched n).shared.mesh.conns[p]? with
    | none => rfl
    | some c => exact absurd ⟨n, hn, by rw [hc]; rfl⟩ hnever
  -- a tick that starts when the window has elapsed and the slot is free
  obtain ⟨N₁, hN₁, hdue⟩ := h.window_elapses
  obtain ⟨N₂, hN₂, hslot⟩ := h.frees hN₁
  have hfree : p ∉ (dialerAt myId sched N₂).shared.dialing := hslot.resolve_left fun hsome => by
    rw [hno N₂ (by omega)] at hsome
    cases hsome
  obtain ⟨n₀, hn₀, members, hmem, hstart⟩ := h.ticks N₂
  have htick : (dialerAt myId sched (n₀ + 1)).tasks[(dialerAt myId sched n₀).tasks.length]? =
      some (.plain (.tick members)) := by
    show ((dialer myId).step (dialerAt myId sched n₀) (sched n₀)).tasks[_]? = _
    rw [hstart]
    exact List.getElem?_concat_length
  obtain ⟨n₁, r₁, hn₁, hgo₁, hthere₁⟩ := h.runs (by omega) htick (fun _ _ _ => nofun)
  obtain ⟨hmissing, -, -⟩ := dialerAt_succ hgo₁ hthere₁
  have hdial : p ∈ (dialerAt myId sched n₁).shared.missing myId members :=
    List.mem_filter.mpr ⟨hmem, decide_eq_true ⟨hp, hno n₁ (by omega)⟩⟩
  obtain ⟨n₂, r₂, hn₂, hgo₂, hthere₂⟩ :=
    h.runs (N := n₁ + 1) (by omega) hmissing (fun _ _ _ => nofun)
  obtain ⟨hcalling, -, -⟩ := dialerAt_succ hgo₂ hthere₂
  have hpass : p ∈ dialBackoffFilter ((dialerAt myId sched n₁).shared.missing myId members)
      (dialerAt myId sched n₂).shared.dialBackoff r₂.now :=
    mem_dialBackoffFilter.mpr ⟨hdial, hdue n₂ _ r₂ (by omega) hgo₂⟩
  obtain ⟨m, hm, hsome⟩ := h.connects_of_calling hpass (n₂ + 1) (by omega)
    (fun m hm => h.stays_free (by omega) hfree hno (by omega)) hcalling
  rw [hno m (by omega)] at hsome
  cases hsome

end WithinReach

namespace Sample

/-- A dial that times out: its failure is on record, and its slot is not yet free. -/
def missed : List (Act DialerTask ContactReads ContactEvent) :=
  [.start (.plain (.tick [key 1])), .go 0 {}, .go 0 {}, .go 0 {}, .go 0 {}, .drop 1, .go 1 {}]

/-- What the network answers then: a new connection. -/
def answer (n : Nat) : ContactReads := { now := 40000, dialed := some (some n) }

/-- From then on a tick starts again and again, and every place is run again and again. -/
def rounds (n : Nat) : Act DialerTask ContactReads ContactEvent :=
  match missed[n]? with
  | some a => a
  | none =>
    if n.unpair.1 % 2 = 0 then .start (.plain (.tick [key 1]))
    else .go n.unpair.2 (answer n)

/-- What the rounds are made of: ticks, dials that succeed, and what comes of them. -/
def quiet : DialerTask → Bool
  | .plain (.tick _) | .plain (.dialMissing _) | .plain (.watching _ _) | .plain .done => true
  | .calling _ | .spawning _ _ => true
  | .slot _ (.dialing _) | .slot _ (.registering true _ _) | .slot _ (.recording true _ _)
  | .slot _ (.outcome _ true) | .slot _ .done => true
  | _ => false

section Rounds

variable {m : Mesh} {bound n : Nat} {myId : Id} {s : Dialer} {t : DialerTask}

end Rounds

end Sample

end Nullgate
