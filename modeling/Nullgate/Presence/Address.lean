/-
  File:      Nullgate/Presence/Address.lean
  Subject:   THE PUBLIC ADDRESS SHOWN FOR A PEER: what is observed of it, or what it says.

  A heartbeat advertises an address, and so does an observation of the connection; each of them
  overwrites the other's.

  * `publicIpRegister`: what writes a peer's public address;
  * `SameButAdvertised`: two runs that differ in what a peer advertises;
  * **`public_ip_unspoofed_iff`**: both show what was observed last exactly when no later
    heartbeat has the last word with another address;
  * `locationEntries`: the locations an originator signs; `public_ip_spoofed`.
-/
import Nullgate.Lib.Fold
import Nullgate.Presence.Tracker

namespace Nullgate

open Nullgate.Lib

namespace PresenceTracker

/-! ## 1. Who writes the address -/

/-- The public address shown for a peer. -/
def publicIp (t : PresenceTracker) (p : Id) : Option String := (t.entry p).publicIp

/-- What a call writes to the public address of `p`: the address of a heartbeat that is not too
    old, or of an observation, if it has one. -/
def writesPublicIp (p : Id) (t : PresenceTracker) : PresenceCall → Option (Option String)
  | .heartbeat id h =>
    if id = p ∧ ¬ h.ts < (t.entry p).lastSeen ∧ h.publicIp.isSome then some h.publicIp else none
  | .connection id info _ =>
    if id = p ∧ info.publicIp.isSome then some info.publicIp else none
  | _ => none

/-- A call about another peer does not write the address. -/
theorem writesPublicIp_of_ne {p : Id} {t : PresenceTracker} {c : PresenceCall}
    (h : c.about ≠ p) : writesPublicIp p t c = none := by
  cases c with
  | heartbeat id hb => exact if_neg fun hw => h hw.1
  | connection id info online => exact if_neg fun hw => h hw.1
  | virtualIp id ip => rfl
  | location id location => rfl

/-- **The public address of a peer as a register.** -/
def publicIpRegister (p : Id) : Register step (Option String) where
  obs t := t.publicIp p
  writes := writesPublicIp p
  law t c := by
    by_cases hc : c.about = p
    · rw [publicIp, publicIp, entry_step_self hc]
      cases c with
      | heartbeat id h =>
        rw [onEntry, PeerStatus.publicIp_heartbeat, writesPublicIp]
        by_cases hw : ¬ h.ts < (t.entry p).lastSeen ∧ h.publicIp.isSome
        · rw [if_pos hw, if_pos ⟨hc, hw⟩, Option.getD_some]
        · rw [if_neg hw, if_neg fun hall => hw hall.2, Option.getD_none]
      | connection id info online =>
        rw [onEntry, PeerStatus.publicIp_connection, writesPublicIp]
        by_cases hw : info.publicIp.isSome
        · rw [if_pos hw, if_pos ⟨hc, hw⟩, Option.getD_some]
        · rw [if_neg hw, if_neg fun hall => hw hall.2, Option.getD_none]
      | virtualIp id ip => rfl
      | location id location => rfl
    · rw [publicIp, publicIp, entry_step_of_ne hc, writesPublicIp_of_ne hc, Option.getD_none]

/-! ## 2. What a peer says of itself -/

/-- An observation of `p` with a public address. -/
def Observes (p : Id) : PresenceCall → Prop
  | .connection id info _ => id = p ∧ info.publicIp.isSome
  | _ => False

instance decidableObserves (p : Id) : ∀ c, Decidable (Observes p c)
  | .connection id info _ => inferInstanceAs (Decidable (id = p ∧ info.publicIp.isSome))
  | .heartbeat _ _ => isFalse fun h => h
  | .virtualIp _ _ => isFalse fun h => h
  | .location _ _ => isFalse fun h => h

/-- The address a call advertises for `p`: that of a heartbeat that is not too old. -/
def advertises (p : Id) (t : PresenceTracker) : PresenceCall → Option String
  | .heartbeat id h => if id = p ∧ ¬ h.ts < (t.entry p).lastSeen then h.publicIp else none
  | _ => none

/-- **The last word of `p` on its address**: what its last heartbeat with an address says. -/
def LastAdvertised (p : Id) (t : PresenceTracker) (calls : List PresenceCall) (ip : String) :
    Prop :=
  ∃ pre c post, calls = pre ++ c :: post ∧ advertises p (run step t pre) c = some ip ∧
    ∀ pre' c' post', post = pre' ++ c' :: post' →
      advertises p (run step t (pre ++ c :: pre')) c' = none

/-- Behind an observation of the address `o`, `p` does not have the last word with another. -/
def NotOverwritten (p : Id) (t : PresenceTracker) (calls : List PresenceCall) (o : String) : Prop :=
  ∀ ip, LastAdvertised p t calls ip → ip = o

theorem writesPublicIp_eq {p : Id} {t : PresenceTracker} {c : PresenceCall}
    (h : ¬ Observes p c) : writesPublicIp p t c = (advertises p t c).map some := by
  cases c with
  | heartbeat id hb =>
    rw [writesPublicIp, advertises]
    by_cases hid : id = p ∧ ¬ hb.ts < (t.entry p).lastSeen
    · rw [if_pos hid]
      cases hip : hb.publicIp with
      | some ip => rw [if_pos ⟨hid.1, hid.2, rfl⟩, Option.map_some]
      | none => rw [if_neg (by simp), Option.map_none]
    · rw [if_neg hid, if_neg fun hall => hid ⟨hall.1, hall.2.1⟩, Option.map_none]
  | connection id info online => exact if_neg h
  | virtualIp id ip => rfl
  | location id location => rfl

/-- Where nothing is observed, the last write is the peer's last word. -/
theorem lastWrite_iff {p : Id} {t : PresenceTracker} {calls : List PresenceCall}
    (hquiet : ∀ c ∈ calls, ¬ Observes p c) (v : Option String) :
    (publicIpRegister p).LastWrite t calls v ↔ ∃ ip, v = some ip ∧ LastAdvertised p t calls ip := by
  constructor
  · rintro ⟨pre, c, post, hsplit, hwrites, hrest⟩
    have hc := hquiet c (by rw [hsplit]; simp)
    have hadv : (advertises p (run step t pre) c).map some = some v :=
      (writesPublicIp_eq hc).symm.trans hwrites
    obtain ⟨ip, hip, hv⟩ := Option.map_eq_some_iff.mp hadv
    refine ⟨ip, hv.symm, pre, c, post, hsplit, hip, fun pre' c' post' hpost => ?_⟩
    have hc' := hquiet c' (by rw [hsplit, hpost]; simp)
    have hnone := hrest pre' c' post' hpost
    rw [← run_append, List.append_assoc, List.singleton_append] at hnone
    have hadv' : (advertises p (run step t (pre ++ c :: pre')) c').map some = none :=
      (writesPublicIp_eq hc').symm.trans hnone
    exact Option.map_eq_none_iff.mp hadv'
  · rintro ⟨ip, rfl, pre, c, post, hsplit, hip, hrest⟩
    have hc := hquiet c (by rw [hsplit]; simp)
    refine ⟨pre, c, post, hsplit, (writesPublicIp_eq hc).trans (by rw [hip]; rfl), ?_⟩
    intro pre' c' post' hpost
    have hc' := hquiet c' (by rw [hsplit, hpost]; simp)
    rw [← run_append, List.append_assoc, List.singleton_append]
    exact (writesPublicIp_eq hc').trans (by rw [hrest pre' c' post' hpost]; rfl)

/-- What is observed of a peer is shown. -/
theorem publicIp_observed {p : Id} {info : ConnInfo} {o : String} (t : PresenceTracker)
    (online : Bool) (h : info.publicIp = some o) :
    (t.step (.connection p info online)).publicIp p = some o := by
  have hself : (PresenceCall.connection p info online).about = p := rfl
  rw [publicIp, entry_step_self hself, onEntry, PeerStatus.publicIp_connection, h]
  rfl

/-- **What was observed stays exactly if the peer does not have the last word** with another
    address. -/
theorem publicIp_behind_iff {p : Id} {t : PresenceTracker} {calls : List PresenceCall} {o : String}
    (h : t.publicIp p = some o) (hquiet : ∀ c ∈ calls, ¬ Observes p c) :
    (run step t calls).publicIp p = some o ↔ NotOverwritten p t calls o := by
  refine ((publicIpRegister p).obs_run_eq_iff h).trans ⟨fun hlast ip hip => ?_, ?_⟩
  · exact Option.some.inj (hlast (some ip) ((lastWrite_iff hquiet _).mpr ⟨ip, rfl, hip⟩))
  · intro hkeep v hv
    obtain ⟨ip, rfl, hip⟩ := (lastWrite_iff hquiet v).mp hv
    rw [hkeep ip hip]

/-! ## 3. Two runs -/

/-- The same call, up to the address a heartbeat of `p` advertises. -/
def SameButAdvertised (p : Id) (c c' : PresenceCall) : Prop :=
  c = c' ∨ ∃ h h' : Heartbeat, c = .heartbeat p h ∧ c' = .heartbeat p h' ∧
    { h with publicIp := none } = { h' with publicIp := none }

theorem SameButAdvertised.observes_iff {p : Id} {c c' : PresenceCall}
    (h : SameButAdvertised p c c') : Observes p c ↔ Observes p c' := by
  rcases h with rfl | ⟨h, h', rfl, rfl, -⟩ <;> exact Iff.rfl

theorem not_observes_of_same {p : Id} {calls calls' : List PresenceCall}
    (h : List.Forall₂ (SameButAdvertised p) calls calls') (hquiet : ∀ c ∈ calls, ¬ Observes p c) :
    ∀ c ∈ calls', ¬ Observes p c := by
  induction h with
  | nil => exact hquiet
  | cons hsame _ ih =>
    intro c hc
    rcases List.mem_cons.mp hc with rfl | hc
    · rw [← hsame.observes_iff]
      exact hquiet _ List.mem_cons_self
    · exact ih (fun c hc => hquiet c (List.mem_cons_of_mem _ hc)) c hc

/-- Other peers are shown alike. -/
theorem entry_run_other {p q : Id} (hq : q ≠ p) {calls calls' : List PresenceCall}
    (h : List.Forall₂ (SameButAdvertised p) calls calls') {t t' : PresenceTracker}
    (ht : t.entry q = t'.entry q) : (run step t calls).entry q = (run step t' calls').entry q := by
  induction h generalizing t t' with
  | nil => exact ht
  | cons hsame _ ih =>
    refine ih ?_
    rcases hsame with rfl | ⟨h, h', rfl, rfl, -⟩
    · rename_i c _ _ _
      by_cases hc : c.about = q
      · rw [entry_step_self hc, entry_step_self hc, ht]
      · rw [entry_step_of_ne hc, entry_step_of_ne hc, ht]
    · rw [entry_step_of_ne (Ne.symm hq), entry_step_of_ne (Ne.symm hq), ht]

/-- The members' locations, as the originator resolves and signs them; `lookup` parses an
    address and looks it up. -/
def locationEntries (t : PresenceTracker) (members : List Id) (myId : Id)
    (myPublicIp : Option String) (lookup : String → Option String) : List (Id × String) :=
  members.filterMap fun id =>
    let pip := if id = myId then myPublicIp else (t.peers[id]?).bind (·.publicIp)
    (pip.bind lookup).map fun loc => (id, loc)

theorem bind_publicIp (t : PresenceTracker) (id : Id) :
    (t.peers[id]?).bind (·.publicIp) = t.publicIp id := by
  rw [publicIp, entry]
  cases t.peers[id]? <;> rfl

end PresenceTracker

open PresenceTracker in
/-- **Two runs that differ only in the addresses `p` advertises** both show the one observed last
    exactly if in neither of them `p` has the last word behind that observation with another
    address; and then the originator signs the same locations. -/
theorem public_ip_unspoofed_iff (t : PresenceTracker) {p : Id} {info : ConnInfo} {o : String}
    (online : Bool) {before before' behind behind' : List PresenceCall}
    (hbefore : List.Forall₂ (SameButAdvertised p) before before')
    (hbehind : List.Forall₂ (SameButAdvertised p) behind behind')
    (hobserved : info.publicIp = some o) (hlast : ∀ c ∈ behind, ¬ Observes p c) :
    let seen := run step t (before ++ [.connection p info online])
    let seen' := run step t (before' ++ [.connection p info online])
    let shown := run step seen behind
    let shown' := run step seen' behind'
    ((shown.publicIp p = shown'.publicIp p ∧ shown.publicIp p = some o) ↔
      NotOverwritten p seen behind o ∧ NotOverwritten p seen' behind' o) ∧
    (NotOverwritten p seen behind o → NotOverwritten p seen' behind' o →
      ∀ members myId myPublicIp lookup,
        shown.locationEntries members myId myPublicIp lookup =
          shown'.locationEntries members myId myPublicIp lookup) := by
  intro seen seen' shown shown'
  have hlast' := not_observes_of_same hbehind hlast
  have hseen : seen.publicIp p = some o := by
    show (run step t (before ++ [_])).publicIp p = some o
    rw [run_append]
    exact publicIp_observed _ online hobserved
  have hseen' : seen'.publicIp p = some o := by
    show (run step t (before' ++ [_])).publicIp p = some o
    rw [run_append]
    exact publicIp_observed _ online hobserved
  have hiff := publicIp_behind_iff hseen hlast
  have hiff' := publicIp_behind_iff hseen' hlast'
  refine ⟨⟨fun ⟨hsame, ho⟩ => ⟨hiff.mp ho, hiff'.mp (hsame.symm.trans ho)⟩, ?_⟩, ?_⟩
  · rintro ⟨h, h'⟩
    exact ⟨(hiff.mpr h).trans (hiff'.mpr h').symm, hiff.mpr h⟩
  · intro h h' members myId myPublicIp lookup
    have hall : ∀ id, shown.publicIp id = shown'.publicIp id := by
      intro id
      by_cases hid : id = p
      · rw [hid]
        exact (hiff.mpr h).trans (hiff'.mpr h').symm
      · have hentry : seen.entry id = seen'.entry id := by
          show (run step t (before ++ [_])).entry id = (run step t (before' ++ [_])).entry id
          rw [run_append, run_append]
          exact entry_run_other hid (.cons (Or.inl rfl) .nil) (entry_run_other hid hbefore rfl)
        exact congrArg PeerStatus.publicIp (entry_run_other hid hbehind hentry)
    rw [locationEntries, locationEntries]
    simp only [bind_publicIp, hall]

namespace Sample

/-- Device 5 is seen at an address. -/
def seenAt (ip : String) : PresenceCall :=
  .connection (Bytes.fill 32 5) { publicIp := some ip } true

/-- A heartbeat of device 5, with what it says of its address. -/
def tells (ip : Option String) (ts : UInt64) : PresenceCall :=
  .heartbeat (Bytes.fill 32 5)
    { hostname := "laptop", publicIp := ip, accessDisabled := false, hidden := false, ts }

theorem tells_same (ip ip' : Option String) (ts : UInt64) :
    List.Forall₂ (PresenceTracker.SameButAdvertised (Bytes.fill 32 5)) [tells ip ts]
      [tells ip' ts] :=
  .cons (Or.inr ⟨_, _, rfl, rfl, rfl⟩) .nil

end Sample

open PresenceTracker Sample in
/-- A device that says nothing of its address, and one that says what is observed. -/
theorem public_ip_unspoofed_honest :
    NotOverwritten (Bytes.fill 32 5) (run step {} [seenAt "198.51.100.7"]) [tells none 1000]
      "198.51.100.7" ∧
    NotOverwritten (Bytes.fill 32 5) (run step {} [seenAt "198.51.100.7"])
      [tells (some "198.51.100.7") 1000] "198.51.100.7" :=
  (public_ip_unspoofed_iff {} true .nil (tells_same none (some "198.51.100.7") 1000) rfl
    (by decide)).1.mp (by decide +kernel)

open PresenceTracker Sample in
/-- A device that names another address is shown there. -/
theorem public_ip_spoofed :
    List.Forall₂ (SameButAdvertised (Bytes.fill 32 5))
      [seenAt "198.51.100.7", tells none 1000]
      [seenAt "198.51.100.7", tells (some "203.0.113.9") 1000] ∧
    (run step {} [seenAt "198.51.100.7", tells none 1000]).publicIp (Bytes.fill 32 5) =
      some "198.51.100.7" ∧
    (run step {} [seenAt "198.51.100.7", tells (some "203.0.113.9") 1000]).publicIp
      (Bytes.fill 32 5) = some "203.0.113.9" :=
  ⟨.cons (Or.inl rfl) (tells_same none (some "203.0.113.9") 1000), by decide +kernel,
    by decide +kernel⟩

end Nullgate
