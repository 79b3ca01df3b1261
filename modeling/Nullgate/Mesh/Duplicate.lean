/-
  File:      Nullgate/Mesh/Duplicate.lean
  Subject:   TWO ENDS AND THE CONNECTIONS BETWEEN THEM: they settle on the same one.

  Two nodes open any number of connections to each other. Each end registers each of them at
  most once, or closes it; a close is seen at the other end after any delay; the close
  watchers run whenever their connection is closed.

  * `Pair`, `LinkEvent`, `Pair.step` -- both ends, and what may happen next;
  * `Endpoint.Settled`: the invariant of one end. A registered connection is the entry as long
    as it is open, and the entry is one whose watcher has not run;
  * `duplicate_agreement`: where nothing is left to do, both ends hold the same open
    connection or neither holds one, and every other registered one is closed.
-/
import Nullgate.Mesh.Register
import Nullgate.Lib.Fold
import Nullgate.Roster.Build

namespace Nullgate

open Nullgate.Lib

/-! ## 1. Two nodes -/

/-- The two nodes. -/
inductive Node where
  | left
  | right
  deriving DecidableEq

def Node.other : Node → Node
  | .left => .right
  | .right => .left

@[simp] theorem Node.other_other (e : Node) : e.other.other = e := by cases e <;> rfl

/-- A connection between them, with the node that opened it. -/
structure Link where
  id : Nat
  opener : Node
  deriving DecidableEq

/-- The connection as the node `e` holds it. -/
def Link.at (c : Link) (e : Node) : Conn := ⟨c.id, if c.opener = e then .client else .server⟩

/-- One end: its table, and what it has done with each connection. -/
structure Endpoint where
  mesh : Mesh := {}
  registered : List Link := []
  /-- closed without having been registered -/
  declined : List Link := []
  /-- the connections whose close watcher has not run -/
  watching : List Link := []

/-- **Both ends, and the connections opened so far.** -/
structure Pair where
  opened : List Link := []
  ends : Node → Endpoint := fun _ => {}

inductive LinkEvent where
  | opened (c : Link)
  | register (e : Node) (c : Link)
  /-- the end closes the connection instead of registering it -/
  | decline (e : Node) (c : Link)
  /-- the end sees that the other one has closed the connection -/
  | deliver (e : Node) (c : Link)
  /-- the end loses the connection -/
  | lose (e : Node) (c : Link)
  | watch (e : Node) (c : Link)

/-- The connection is closed at `e`. -/
def Pair.closedAt (s : Pair) (e : Node) (c : Link) : Bool := (s.ends e).mesh.isClosed (c.at e)

namespace Endpoint

variable (me peer : Id) (e : Node) (s : Endpoint) (c : Link)

/-- `register_mesh` with the connection; the one that stays gets a watcher. -/
def register : Endpoint :=
  let (mesh, verdict) := s.mesh.registerMesh me peer (c.at e)
  { s with
    mesh
    registered := c :: s.registered
    watching := if verdict = .keepExisting then s.watching else c :: s.watching }

def close : Endpoint := { s with mesh := s.mesh.close (c.at e) }

def decline : Endpoint := { s.close e c with declined := c :: s.declined }

/-- The close watcher of the connection runs. -/
def watch : Endpoint :=
  { s with
    mesh := (s.mesh.evict peer (c.at e)).1
    watching := s.watching.filter fun c' => decide (c' ≠ c) }

end Endpoint

variable (ids : Node → Id)

namespace Pair

/-- The event can happen. -/
def Enabled (s : Pair) : LinkEvent → Prop
  | .opened c => c.id ∉ s.opened.map Link.id
  | .register e c => c ∈ s.opened ∧ c ∉ (s.ends e).registered ∧ c ∉ (s.ends e).declined
  | .decline e c => c ∈ s.opened ∧ c ∉ (s.ends e).registered ∧ c ∉ (s.ends e).declined
  | .deliver e c => c ∈ s.opened ∧ s.closedAt e.other c = true ∧ s.closedAt e c = false
  | .lose e c => c ∈ s.opened ∧ s.closedAt e c = false
  | .watch e c => c ∈ (s.ends e).watching ∧ s.closedAt e c = true

instance decidableEnabled (s : Pair) : ∀ ev, Decidable (s.Enabled ev)
  | .opened c => inferInstanceAs (Decidable (c.id ∉ s.opened.map Link.id))
  | .register _ _ => inferInstanceAs (Decidable (_ ∈ _ ∧ _ ∉ _ ∧ _ ∉ _))
  | .decline _ _ => inferInstanceAs (Decidable (_ ∈ _ ∧ _ ∉ _ ∧ _ ∉ _))
  | .deliver _ _ => inferInstanceAs (Decidable (_ ∈ _ ∧ _ = true ∧ _ = false))
  | .lose _ _ => inferInstanceAs (Decidable (_ ∈ _ ∧ _ = false))
  | .watch _ _ => inferInstanceAs (Decidable (_ ∈ _ ∧ _ = true))

def update (s : Pair) (e : Node) (f : Endpoint → Endpoint) : Pair :=
  { s with ends := Function.update s.ends e (f (s.ends e)) }

/-- What the event does. -/
def apply (s : Pair) : LinkEvent → Pair
  | .opened c => { s with opened := c :: s.opened }
  | .register e c => s.update e fun n => n.register (ids e) (ids e.other) e c
  | .decline e c => s.update e fun n => n.decline e c
  | .deliver e c => s.update e fun n => n.close e c
  | .lose e c => s.update e fun n => n.close e c
  | .watch e c => s.update e fun n => n.watch (ids e.other) e c

def step (s : Pair) (ev : LinkEvent) : Pair := if s.Enabled ev then s.apply ids ev else s

end Pair

/-- What the two nodes do by themselves, without new connections and without losses. -/
def LinkEvent.internal : LinkEvent → Bool
  | .opened _ => false
  | .lose _ _ => false
  | _ => true

/-- **Nothing is left to do.** -/
def Pair.Quiescent (s : Pair) : Prop := ∀ ev : LinkEvent, ev.internal = true → ¬ s.Enabled ev

/-! ## 2. The invariant of one end -/

/-- **What one end keeps**, of the connections opened so far. -/
structure Endpoint.Settled (peer : Id) (e : Node) (opened : List Link) (s : Endpoint) : Prop where
  tracked : ∀ c ∈ s.registered, s.mesh.Tracks peer (c.at e)
  entry : ∀ d, s.mesh.conns[peer]? = some d → ∃ c ∈ s.watching, d = c.at e
  watching : ∀ c ∈ s.watching, c ∈ s.registered
  opened : ∀ c ∈ s.registered, c ∈ opened
  declined : ∀ c ∈ s.declined, s.mesh.isClosed (c.at e) = true

namespace Endpoint.Settled

variable {me peer : Id} {e : Node} {opened : List Link} {s : Endpoint} {c : Link}

theorem start (peer : Id) (e : Node) (opened : List Link) :
    Endpoint.Settled peer e opened {} where
  tracked c h := by cases h
  entry d h := by simp at h
  watching c h := by cases h
  opened c h := by cases h
  declined c h := by cases h

theorem more (h : s.Settled peer e opened) (c : Link) : s.Settled peer e (c :: opened) :=
  { h with opened := fun c' hc' => List.mem_cons_of_mem _ (h.opened c' hc') }

theorem close (h : s.Settled peer e opened) (c : Link) : (s.close e c).Settled peer e opened where
  tracked c' hc' := (h.tracked c' hc').close _
  entry := h.entry
  watching := h.watching
  opened := h.opened
  declined c' hc' := Mesh.closed_close (h.declined c' hc')

theorem decline (h : s.Settled peer e opened) (c : Link) :
    (s.decline e c).Settled peer e opened where
  tracked c' hc' := (h.close c).tracked c' hc'
  entry := h.entry
  watching := h.watching
  opened := h.opened
  declined c' hc' := by
    rcases List.mem_cons.mp hc' with rfl | hc'
    · exact Mesh.isClosed_close_self
    · exact (h.close c).declined c' hc'

/-- The connection that is registered is tracked from then on, and so are the others. -/
theorem register (h : s.Settled peer e opened) (hc : c ∈ opened) :
    (s.register me peer e c).Settled peer e opened where
  tracked c' hc' := by
    rcases List.mem_cons.mp hc' with rfl | hc'
    · exact Mesh.tracks_registerMesh_self me _ peer _
    · exact (h.tracked c' hc').registerMesh me peer _
  entry d hd := by
    by_cases hv : (s.mesh.registerMesh me peer (c.at e)).2 = .keepExisting
    · have hd' : s.mesh.conns[peer]? = some d := by
        rw [Endpoint.register, Mesh.registerMesh_loser hv] at hd
        exact hd
      obtain ⟨c', hc', rfl⟩ := h.entry d hd'
      exact ⟨c', by simpa [Endpoint.register, hv] using hc', rfl⟩
    · have hd' : some (c.at e) = some d := (Mesh.registerMesh_conns_self hv).symm.trans hd
      exact ⟨c, by simp [Endpoint.register, hv], (Option.some.inj hd').symm⟩
  watching c' hc' := by
    by_cases hv : (s.mesh.registerMesh me peer (c.at e)).2 = .keepExisting
    · exact List.mem_cons_of_mem _ (h.watching c' (by simpa [Endpoint.register, hv] using hc'))
    · have hc'' : c' = c ∨ c' ∈ s.watching := by simpa [Endpoint.register, hv] using hc'
      rcases hc'' with rfl | hc''
      · exact List.mem_cons_self
      · exact List.mem_cons_of_mem _ (h.watching c' hc'')
  opened c' hc' := by
    rcases List.mem_cons.mp hc' with rfl | hc'
    · exact hc
    · exact h.opened c' hc'
  declined c' hc' := Mesh.registerMesh_closed (h.declined c' hc')

/-- The watcher of a closed connection leaves an entry that is another one. -/
theorem watch (h : s.Settled peer e opened) (hc : s.mesh.isClosed (c.at e) = true) :
    (s.watch peer e c).Settled peer e opened where
  tracked c' hc' := (h.tracked c' hc').evict hc peer
  entry d hd := by
    obtain ⟨c', hc', rfl⟩ := h.entry d (Mesh.evict_entry hd)
    refine ⟨c', List.mem_filter.mpr ⟨hc', ?_⟩, rfl⟩
    have hne : (c'.at e).id ≠ (c.at e).id := Mesh.evict_ne hd
    rw [decide_eq_true_eq]
    rintro rfl
    exact hne rfl
  watching c' hc' := h.watching c' (List.mem_filter.mp hc').1
  opened := h.opened
  declined c' hc' := by
    have hclosed := h.declined c' hc'
    rwa [← Mesh.isClosed_evict (p := peer) (c := c.at e)] at hclosed

end Endpoint.Settled

/-! ## 3. Both ends -/

/-- Both ends keep the invariant. -/
def Pair.Settled (s : Pair) : Prop :=
  ∀ e : Node, (s.ends e).Settled (ids e.other) e s.opened

variable {ids} {s : Pair}

theorem Pair.Settled.update {e : Node} {f : Endpoint → Endpoint} (h : s.Settled ids)
    (hf : (f (s.ends e)).Settled (ids e.other) e s.opened) : (s.update e f).Settled ids := by
  intro e'
  by_cases he : e' = e
  · subst he
    simpa [Pair.update] using hf
  · simpa [Pair.update, Function.update_of_ne he] using h e'

/-- **Every event keeps the invariant.** -/
theorem Pair.settled_step (h : s.Settled ids) (ev : LinkEvent) : (s.step ids ev).Settled ids := by
  unfold Pair.step
  split
  · rename_i hen
    cases ev with
    | opened c => exact fun e => (h e).more c
    | register e c => exact h.update ((h e).register hen.1)
    | decline e c => exact h.update ((h e).decline c)
    | deliver e c => exact h.update ((h e).close c)
    | lose e c => exact h.update ((h e).close c)
    | watch e c => exact h.update ((h e).watch hen.2)
  · exact h

theorem Pair.settled_run (l : List LinkEvent) : (run (Pair.step ids) {} l).Settled ids :=
  run_invariant (I := fun s : Pair => s.Settled ids) (fun _ ev _ h => settled_step h ev)
    fun e => Endpoint.Settled.start (ids e.other) e _

namespace Pair

/-- Every connection is decided at both ends, no close is on its way, and no watcher waits for
    a closed connection: then nothing is left to do. -/
theorem quiescent_of (h : ∀ e : Node,
    (∀ c ∈ s.opened, (c ∈ (s.ends e).registered ∨ c ∈ (s.ends e).declined) ∧
      (s.closedAt e.other c = true → s.closedAt e c = true)) ∧
    ∀ c ∈ (s.ends e).watching, s.closedAt e c = false) : s.Quiescent := by
  intro ev hint hen
  cases ev with
  | opened c => cases hint
  | lose e c => cases hint
  | register e c => exact ((h e).1 c hen.1).1.elim hen.2.1 hen.2.2
  | decline e c => exact ((h e).1 c hen.1).1.elim hen.2.1 hen.2.2
  | deliver e c =>
    have hcl := ((h e).1 c hen.1).2 hen.2.1
    rw [hen.2.2] at hcl
    cases hcl
  | watch e c =>
    have hcl := (h e).2 c hen.1
    rw [hen.2] at hcl
    cases hcl

/-- Where nothing is left to do, the entry of an end is open there. -/
theorem Quiescent.entry_open (hq : s.Quiescent) (h : s.Settled ids) {e : Node} {d : Conn}
    (hd : (s.ends e).mesh.conns[ids e.other]? = some d) :
    ∃ c ∈ s.opened, d = c.at e ∧ s.closedAt e c = false := by
  obtain ⟨c, hc, rfl⟩ := (h e).entry d hd
  refine ⟨c, (h e).opened c ((h e).watching c hc), rfl, ?_⟩
  cases hcl : s.closedAt e c with
  | true => exact absurd ⟨hc, hcl⟩ (hq (.watch e c) rfl)
  | false => rfl

/-- A connection open at one end is open at the other, and the entry there. -/
theorem Quiescent.entry_other (hq : s.Quiescent) (h : s.Settled ids) {e : Node} {c : Link}
    (hc : c ∈ s.opened) (hopen : s.closedAt e c = false) :
    (s.ends e.other).mesh.conns[ids e]? = some (c.at e.other) ∧ s.closedAt e.other c = false := by
  have hother : s.closedAt e.other c = false := by
    cases hcl : s.closedAt e.other c with
    | true => exact absurd ⟨hc, hcl, hopen⟩ (hq (.deliver e c) rfl)
    | false => rfl
  -- the other end has taken a decision, and declining would have closed it
  have hreg : c ∈ (s.ends e.other).registered := by
    by_contra hno
    have hdec : c ∈ (s.ends e.other).declined := by
      by_contra hnd
      exact hq (.register e.other c) rfl ⟨hc, hno, hnd⟩
    have hcl := (h e.other).declined c hdec
    rw [closedAt, hcl] at hother
    cases hother
  refine ⟨?_, hother⟩
  have htrack := (h e.other).tracked c hreg hother
  rwa [Node.other_other] at htrack

end Pair

variable (ids) in
/-- The two ends hold the connection `c`, open. -/
def Pair.Shares (s : Pair) (c : Link) : Prop :=
  ∀ e : Node, (s.ends e).mesh.conns[ids e.other]? = some (c.at e) ∧ s.closedAt e c = false

/-- **Duplicate connections: the two ends agree.** Whatever the order of registrations, closes
    and watchers, where nothing is left to do both ends hold the same connection, open, or
    neither holds one, and at each end every registered connection that is not the entry is
    closed. -/
theorem duplicate_agreement (ids : Node → Id) (l : List LinkEvent)
    (hq : (run (Pair.step ids) {} l).Quiescent) :
    ((∃ c, (run (Pair.step ids) {} l).Shares ids c) ∨
      ∀ e, ((run (Pair.step ids) {} l).ends e).mesh.conns[ids e.other]? = none) ∧
    ∀ e, ∀ c ∈ ((run (Pair.step ids) {} l).ends e).registered,
      ((run (Pair.step ids) {} l).ends e).mesh.conns[ids e.other]? ≠ some (c.at e) →
      (run (Pair.step ids) {} l).closedAt e c = true := by
  have h : (run (Pair.step ids) {} l).Settled ids := Pair.settled_run l
  generalize run (Pair.step ids) {} l = s at h hq
  refine ⟨?_, fun e c hc hne => ?_⟩
  · by_cases hnone : ∀ e, (s.ends e).mesh.conns[ids e.other]? = none
    · exact Or.inr hnone
    · left
      obtain ⟨e, he⟩ := not_forall.mp hnone
      obtain ⟨d, hd⟩ := Option.ne_none_iff_exists'.mp he
      obtain ⟨c, hc, rfl, hopen⟩ := hq.entry_open h hd
      have hother := hq.entry_other h hc hopen
      refine ⟨c, fun e' => ?_⟩
      by_cases hee : e' = e
      · subst hee
        exact ⟨hd, hopen⟩
      · have : e' = e.other := by cases e <;> cases e' <;> simp_all [Node.other]
        subst this
        rw [Node.other_other]
        exact hother
  · cases hcl : s.closedAt e c with
    | true => rfl
    | false => exact absurd ((h e).tracked c hc hcl) hne

/-! ## 4. A simultaneous open -/

namespace Sample

def nodes : Node → Id
  | .left => key 3
  | .right => key 4

/-- Both nodes dial; each registers its own connection first, then the other's. -/
def bothDial : List LinkEvent :=
  let mine : Link := ⟨1, .left⟩
  let theirs : Link := ⟨2, .right⟩
  [.opened mine, .opened theirs, .register .left mine, .register .right theirs,
    .register .left theirs, .register .right mine, .deliver .right theirs, .watch .right theirs]

end Sample

theorem duplicate_agreement_sample :
    ∃ c, (run (Pair.step Sample.nodes) {} Sample.bothDial).Shares Sample.nodes c := by
  have hq : (run (Pair.step Sample.nodes) {} Sample.bothDial).Quiescent :=
    Pair.quiescent_of fun e => by cases e <;> decide
  exact (duplicate_agreement Sample.nodes Sample.bothDial hq).1.resolve_right
    fun hnone => absurd (hnone .left) (by decide)

end Nullgate
