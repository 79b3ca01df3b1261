/-
  File:      Nullgate/Lifecycle/Overtaken.lean
  Subject:   A TICK AND WHO OVERTAKES IT: the network it has read, the content it has folded.

  A tick reads document and config, waits for the fold, and acts on the shared state many awaits
  later. Nothing it does then looks whether the network is still the one it has read.

  * `ActsOnOwn`: a tick touches the network only in the activation it has read, and with no
    older content than what has taken effect;
  * `WasMember`: who is evicted was a member, by a fold of the same activation;
  * `KeepsPace`: no activation commits and no newer fold takes effect over a tick;
  * `FoldAt`: what a tick has read, against what the device has seen;
  * `tick_acts_on_own`: in a run of such steps, every tick acts on its own.
-/
import Nullgate.Lifecycle.Latched

namespace Nullgate

open Nullgate.Lib

/-! ## 1. What a tick works with -/

namespace Task

/-- The task is a tick, its teardown, or one of its dials. -/
def ofTick : Task → Bool
  | .tickStart | .tickRead _ | .tickFold _ _ | .tickSweep _ _ _ | .tickStore _ _ => true
  | .tickLive | .tickRefresh _ _ | .dial _ | .record true _ _ => true
  | .disconnect _ | .disconnected _ | .forgetConfig => true
  | _ => false

/-- The tick has read the network, and may still act on it; or `refresh_roster` has. -/
def owes : Task → Bool
  | .tickFold _ _ | .tickSweep _ _ _ | .tickStore _ _ | .dial _ | .record true _ _ => true
  | .disconnect _ | .disconnected _ | .forgetConfig | .refreshFold _ | .refreshStore _ => true
  | _ => false

/-- The task goes on with a roster it has folded or copied. -/
def folded : Task → Bool
  | .tickSweep _ _ _ | .tickStore _ _ | .dial _ | .record true _ _ => true
  | .disconnect _ | .disconnected _ | .forgetConfig | .refreshStore _ => true
  | _ => false

/-- The roster it has folded is not cached yet, or the state not yet reset. -/
def uncached : Task → Bool
  | .tickSweep _ _ _ | .tickStore _ _ | .refreshStore _ | .disconnect _ | .disconnected _ => true
  | _ => false

/-- The roster is cached next. -/
def storesRoster : Task → Bool
  | .tickStore _ _ | .refreshStore _ => true
  | _ => false

/-- The tick copies the cached roster next. -/
def copies : Task → Bool
  | .tickFold _ false => true
  | _ => false

/-- The fold of what the task has loaded takes effect next. -/
def latches (r : Reading) (t : Task) : Bool :=
  t.folding && (r.loaded.bind Except.toOption).isSome

/-- The content the task has folded, or folds next. -/
def content? (r : Reading) (t : Task) : Option Nat :=
  if t.folded || t.latches r then some r.version else none

end Task

namespace Job

def owes (j : Job) : Bool := j.fold?.any fun x => x.2.owes

def copies (j : Job) : Bool := j.fold?.any fun x => x.2.copies

def content? (j : Job) : Option Nat := j.fold?.bind fun x => x.2.content? x.1

/-- The content whose fold takes effect next. -/
def latches? (j : Job) : Option Nat :=
  j.fold?.bind fun x => if x.2.latches x.1 then some x.1.version else none

/-- The content whose fold has taken effect, and is not cached yet. -/
def uncached? (j : Job) : Option Nat :=
  j.fold?.bind fun x => if x.2.uncached then some x.1.version else none

end Job

/-! ## 2. The property and the condition -/

/-- The stretch is a tick that finds this device removed. `r` is what the tick works with. -/
def Evicts (C : Crates) (r : Reading) (w : World Device Job) : Act Job Inputs Arrival → Prop
  | .go k i => ∃ r' cfg rebuild, w.tasks[k]? = some (.task r' (.tickFold cfg rebuild)) ∧
      (w.shared.runTask C i r' (.tickFold cfg rebuild)).2.1 = r ∧
      (w.shared.runTask C i r' (.tickFold cfg rebuild)).2.2.1 = .disconnected true
  | _ => False

/-- **This device was a member of what `r` has read**: a fold of the same activation has had it,
    with no newer content; or it was one as the run began, and nothing was activated since. -/
def WasMember (C : Crates) (d : Device) (l : List (Act Job Inputs Arrival)) (r : Reading) : Prop :=
  (∃ before a after r', l = before ++ a :: after ∧
    FoldsItself C r' (run (lifecycle C).step ⟨d, []⟩ before) a ∧
    r'.activation = r.activation ∧ r'.version ≤ r.version) ∨
  d.shown = true ∧ r.activation = d.activations

/-- Config, disk, document, roster, routes and connections are as they were, and nobody is
    dialed. -/
structure Untouched (d d' : Device) (spawned : List Task) : Prop where
  config : d'.config = d.config
  disk : d'.disk = d.disk
  doc : d'.doc = d.doc
  roster : d'.roster = d.roster
  routes : d'.routes = d.routes
  conns : d'.mesh.conns = d.mesh.conns
  quiet : spawned = []

/-- **A tick acts on its own**: its stretch leaves the network alone, or the activation is the one
    it has read, and no newer content has taken effect than what it has folded or copied. -/
def ActsOnOwn (C : Crates) (w : World Device Job) : Act Job Inputs Arrival → Prop
  | .go k i => ∀ r t, w.tasks[k]? = some (.task r t) → t.ofTick = true →
      Untouched w.shared (w.shared.runTask C i r t).1 (w.shared.runTask C i r t).2.2.2 ∨
      ((w.shared.runTask C i r t).2.1.activation = w.shared.activations ∧
        w.shared.seen ≤ (w.shared.runTask C i r t).2.1.version)
  | _ => True

/-- **The ticks act on their own**, and evict the device only where it was a member. -/
structure TicksOnOwn (C : Crates) (d : Device) (l : List (Act Job Inputs Arrival)) : Prop where
  acts : EachStep (lifecycle C).step (ActsOnOwn C) ⟨d, []⟩ l
  evicts : ∀ before a after r, l = before ++ a :: after →
    Evicts C r (run (lifecycle C).step ⟨d, []⟩ before) a → WasMember C d before r

/-- **Nobody overtakes a tick.** An activation commits only while no tick, dial of one or
    `refresh_roster` is under way, on a device that is no member, by the latch or the cached roster;
    a fold takes effect only while nobody works with older content; a tick copies the cached roster
    only while no newer fold waits to be cached, and the call that has such a fold is not
    dropped. -/
def KeepsPace (w : World Device Job) : Act Job Inputs Arrival → Prop
  | .go k _ => ∀ j ∈ w.tasks[k]?,
      (j.commits = true → w.shared.shown = false ∧ ∀ j' ∈ w.tasks, j'.owes = false) ∧
      (∀ v ∈ j.latches?, ∀ j' ∈ w.tasks.eraseIdx k, ∀ v' ∈ j'.content?, v ≤ v') ∧
      (j.copies = true → ∀ j' ∈ w.tasks, ∀ v ∈ j'.uncached?, v ≤ w.shared.rosterAt)
  | .drop k => ∀ j ∈ w.tasks[k]?, j.requested = true → ∀ v ∈ j.uncached?, v ≤ w.shared.rosterAt
  | _ => True

instance decidableKeepsPace : ∀ (w : World Device Job) (a : Act Job Inputs Arrival),
    Decidable (KeepsPace w a)
  | w, .go k _ => inferInstanceAs (Decidable (∀ j ∈ w.tasks[k]?,
      (_ → _ = _ ∧ ∀ j' ∈ w.tasks, _ = _) ∧
      (∀ v ∈ j.latches?, ∀ j' ∈ w.tasks.eraseIdx k, ∀ v' ∈ j'.content?, v ≤ v') ∧
      (_ → ∀ j' ∈ w.tasks, ∀ v ∈ j'.uncached?, v ≤ _)))
  | w, .drop k => inferInstanceAs (Decidable (∀ j ∈ w.tasks[k]?, _ → ∀ v ∈ j.uncached?, v ≤ _))
  | _, .start _ | _, .env _ => isTrue trivial

variable {C : Crates} {d d' : Device} {i : Inputs} {r : Reading} {t : Task} {j : Job}
  {w : World Device Job} {a : Act Job Inputs Arrival}

/-! ## 3. One stretch of a task -/

/-- **What a task has read, against what the device has seen.** -/
structure FoldAt (d : Device) (r : Reading) (t : Task) : Prop where
  activation : t.owes = true → r.activation = d.activations
  content : ∀ v ∈ t.content? r, d.seen ≤ v ∧ v ≤ d.edits
  folded : t.folded = true → r.version ≤ d.seen

/-- A task that has no content yet. -/
theorem foldAt_unread (ho : t.owes = true → r.activation = d.activations) (hf : t.folded = false)
    (hl : t.latches r = false) : FoldAt d r t where
  activation := ho
  content v h := by
    rw [Task.content?, hf, hl] at h
    cases h
  folded h := by
    rw [hf] at h
    cases h

/-- A task that works with nothing. -/
theorem foldAt_idle (ho : t.owes = false) (hf : t.folded = false) (hl : t.latches r = false) :
    FoldAt d r t :=
  foldAt_unread (fun h => by rw [ho] at h; cases h) hf hl

theorem latches_of_unloaded (h : r.loaded = none) : t.latches r = false := by
  rw [Task.latches, h]
  exact Bool.and_false _

/-- A task that goes on with a roster: its content is the newest that has taken effect. -/
theorem foldAt_folded (ho : t.owes = true → r.activation = d.activations)
    (hv : r.version = d.seen) (he : d.seen ≤ d.edits) : FoldAt d r t where
  activation := ho
  content v h := by
    unfold Task.content? at h
    split at h
    · obtain rfl := Option.some.inj h
      omega
    · cases h
  folded _ := by omega

theorem content?_of_folded (h : t.folded = true) : t.content? r = some r.version := by
  rw [Task.content?, h]
  rfl

theorem FoldAt.version_eq (h : FoldAt d r t) (hf : t.folded = true) : r.version = d.seen := by
  have hcontent := h.content _ (content?_of_folded hf)
  have hfolded := h.folded hf
  omega

/-- **What a stretch of a task leaves of the history.** -/
theorem history_runTask (d : Device) (i : Inputs) (r : Reading) (t : Task) :
    (d.runTask C i r t).1.seen = (if t.latches r then max d.seen r.version else d.seen) ∧
    (d.runTask C i r t).1.rosterAt =
      if t.resets then d.seen else if t.storesRoster then r.version else d.rosterAt := by
  rcases d.runTask_cases (C := C) i r t with ⟨hf, hl, he⟩ | ⟨-, l, a, t', spawned, -, hs, he⟩
  · rw [he]
    have hlatches : t.latches r = false := latches_of_unloaded hl
    have hresets : t.resets = false := by cases t <;> first | rfl | cases hf
    have hstores : t.storesRoster = false := by cases t <;> first | rfl | cases hf
    rw [hlatches, hresets, hstores]
    exact ⟨rfl, rfl⟩
  · rw [he]
    cases t with
    | tickFold cfg rebuild =>
      cases rebuild with
      | true =>
        simp only [Device.record, Task.latches, Task.folding, Bool.true_and]
        split <;> exact ⟨rfl, rfl⟩
      | false => exact ⟨rfl, rfl⟩
    | refreshFold cfg =>
      simp only [Device.record, Task.latches, Task.folding, Bool.true_and]
      split <;> exact ⟨rfl, rfl⟩
    | _ => exact ⟨rfl, rfl⟩

/-- The next item of a sweep is a tick that goes on with its roster. -/
theorem sweepNext_next (l : Live) (a : Answers) (roster : Roster) (stale : List (Id × Conn)) :
    (l.sweepNext a roster stale).2.folded = true ∧
      (l.sweepNext a roster stale).2.uncached = true := by
  cases stale <;> exact ⟨rfl, rfl⟩

/-- **How a fold goes on**: with the roster it has, unless the document could not be read. -/
theorem foldTick_next (l : Live) (a : Answers) (cfg : StoredConfig) (rebuild : Bool) :
    ((∃ e, l.foldRoster C a cfg rebuild = .error e) ∧ l.foldTick C a cfg rebuild = (l, .done)) ∨
    (∃ roster, l.foldRoster C a cfg rebuild = .ok roster) ∧
      (l.foldTick C a cfg rebuild).2.folded = true ∧
      (l.foldTick C a cfg rebuild).2.uncached = true := by
  rcases l.foldTick_cases C a cfg rebuild with ⟨e, hf, he⟩ | ⟨roster, hf, -, he⟩ | ⟨roster, hf, he⟩
  · exact Or.inl ⟨⟨e, hf⟩, he⟩
  · rw [he]
    exact Or.inr ⟨⟨roster, hf⟩, rfl, rfl⟩
  · rw [he]
    exact Or.inr ⟨⟨roster, hf⟩, sweepNext_next _ a roster _⟩

/-- **Whose fold takes effect**: who has read the document, and gets a roster. -/
theorem latches_iff {a : Answers} {x : Except String (List Entry)} (hf : t.folding = true)
    (hl : r.loaded.isSome = true) (ha : a.loaded = r.loaded.getD x) (l : Live)
    (cfg : StoredConfig) :
    t.latches r = true ↔ ∃ roster, l.foldRoster C a cfg true = .ok roster := by
  obtain ⟨y, hy⟩ := Option.isSome_iff_exists.mp hl
  rw [hy] at ha
  rw [Task.latches, hf, hy, Live.foldRoster, ha]
  cases y with
  | error e =>
    refine iff_of_false Bool.false_ne_true fun h => ?_
    obtain ⟨roster, hroster⟩ := h
    cases hroster
  | ok entries => exact iff_of_true rfl ⟨_, rfl⟩

/-- A fold that gets no roster takes no effect. -/
theorem latches_of_error {x : Except String Roster} {e : String}
    (h : t.latches r = true ↔ ∃ roster, x = .ok roster) (he : x = .error e) :
    t.latches r = false := by
  by_contra hl
  obtain ⟨roster, hroster⟩ := h.mp (Bool.eq_true_of_not_eq_false hl)
  rw [he] at hroster
  cases hroster

/-- What a stretch of a task does: the task and what it spawns go on in pace, and a roster that
    is folded is on its way to the cache. -/
structure FoldEffect (d : Device) (r : Reading) (t : Task) (d' : Device) (r' : Reading) (t' : Task)
    (spawned : List Task) : Prop where
  next : FoldAt d' r' t'
  spawned : ∀ t'' ∈ spawned, FoldAt d' r' t''
  uncached : t.uncached = true ∨ t.latches r = true → t'.uncached = true ∨ d'.rosterAt = d'.seen

/-- The device's content is in order: what is cached has taken effect, and what has taken effect is
    there. -/
structure InOrder (d : Device) : Prop where
  cached : d.rosterAt ≤ d.seen
  seen : d.seen ≤ d.edits

/-- A task that has no content ends, or goes on without. -/
theorem foldEffect_unread {r' : Reading} {t' : Task}
    (ho : t'.owes = true → r'.activation = d'.activations) (hf : t'.folded = false)
    (hl : t'.latches r' = false) (hu : t.uncached = false) (hlatches : t.latches r = false) :
    FoldEffect d r t d' r' t' [] where
  next := foldAt_unread ho hf hl
  spawned := List.forall_mem_nil _
  uncached h := by
    rw [hu, hlatches] at h
    simp at h

/-- A task that ends, or has no content, leaves nothing to the cache. -/
theorem foldEffect_idle {r' : Reading} {t' : Task} (hu : t.uncached = false)
    (hl : t.latches r = false) (ho : t'.owes = false) (hf : t'.folded = false)
    (hfolding : t'.folding = false) : FoldEffect d r t d' r' t' [] :=
  foldEffect_unread (fun h => by rw [ho] at h; cases h) hf (by rw [Task.latches, hfolding]; rfl)
    hu hl

/-- **A task reads the document**, as it is now. -/
theorem foldEffect_reading {x : Option (Except String (List Entry))} (hd : InOrder d)
    (hat : FoldAt d r t) (hf : t.folding = true) (hl : r.loaded = none) :
    FoldEffect d r t d { r with loaded := x, version := d.edits } t [] := by
  have hlatches : t.latches r = false := latches_of_unloaded hl
  have hfolded : t.folded = false := by cases t <;> first | rfl | cases hf
  have huncached : t.uncached = false := by cases t <;> first | rfl | cases hf
  refine ⟨⟨hat.activation, fun v hv => ?_, fun h => ?_⟩, List.forall_mem_nil _, fun h => ?_⟩
  · unfold Task.content? at hv
    split at hv
    · obtain rfl := Option.some.inj hv
      exact ⟨hd.seen, le_rfl⟩
    · cases hv
  · rw [hfolded] at h
    cases h
  · rw [huncached, hlatches] at h
    simp at h

/-- **A fold takes effect.** -/
theorem FoldAt.latched (hat : FoldAt d r t) (hl : t.latches r = true)
    (hseen : d'.seen = max d.seen r.version) (hedits : d'.edits = d.edits) :
    r.version = d'.seen ∧ d'.seen ≤ d'.edits := by
  obtain ⟨hle, hedit⟩ := hat.content r.version (by rw [Task.content?, hl, Bool.or_true]; rfl)
  omega

/-- A task that has folded goes on with the same content. -/
theorem FoldAt.goes_on {t' : Task} (hat : FoldAt d r t) (hd : InOrder d) (hf : t.folded = true)
    (hactivations : d'.activations = d.activations) (hseen : d'.seen = d.seen)
    (hedits : d'.edits = d.edits) (ho : t'.owes = true → t.owes = true) : FoldAt d' r t' := by
  refine foldAt_folded (fun h => (hat.activation (ho h)).trans hactivations.symm)
    ((hat.version_eq hf).trans hseen.symm) ?_
  rw [hseen, hedits]
  exact hd.seen

/-- **A stretch of a task.** A tick that copies the cached roster needs it to be the newest. -/
theorem foldEffect (i : Inputs) (hd : InOrder d) (hat : FoldAt d r t)
    (hcopies : t.copies = true → d.rosterAt = d.seen) :
    FoldEffect d r t (d.runTask C i r t).1 (d.runTask C i r t).2.1 (d.runTask C i r t).2.2.1
      (d.runTask C i r t).2.2.2 := by
  have hactivations := (taskEffect (C := C) d i r t).activations
  have hedits := (taskEffect (C := C) d i r t).edits
  obtain ⟨hseen, hroster⟩ := history_runTask (C := C) d i r t
  rcases d.runTask_cases (C := C) i r t with
    ⟨hf, hl, he⟩ | ⟨hloaded, l, a, t', spawned, ha, hs, he⟩
  · rw [he]
    exact foldEffect_reading hd hat hf hl
  · have hread : a.loaded = r.loaded.getD i.loaded := by rw [ha]
    obtain rfl : t' = (stretch C d.toLive a t).2.1 := by rw [hs]
    obtain rfl : spawned = (stretch C d.toLive a t).2.2 := by rw [hs]
    rw [he] at hactivations hedits hseen hroster ⊢
    simp only at hactivations hedits hseen hroster ⊢
    generalize ({ d with toLive := l } : Device).record r t = d' at *
    have hsame : t.folded = true → d'.seen = d.seen := fun hf => by
      have hl : t.latches r = false := by cases t <;> first | rfl | cases hf
      rwa [hl, if_neg Bool.false_ne_true] at hseen
    have hkeep : t.folded = true → ∀ t', (t'.owes = true → t.owes = true) → FoldAt d' r t' :=
      fun hf t' ho => hat.goes_on hd hf hactivations (hsame hf) hedits ho
    have hlatch : t.latches r = true → r.version = d'.seen ∧ d'.seen ≤ d'.edits := fun hl => by
      rw [hl, if_pos rfl] at hseen
      exact hat.latched hl hseen hedits
    have hplain : t.uncached = false → t.latches r = false → ∀ t' : Task,
        t.uncached = true ∨ t.latches r = true → t'.uncached = true ∨ d'.rosterAt = d'.seen :=
      fun hu hl t' h => by
        rw [hu, hl] at h
        simp at h
    cases t with
    | tickRead nowCoarse =>
      simp only [stretch, single, Live.readTick]
      split
      · exact foldEffect_unread (fun _ => hactivations.symm) rfl (latches_of_unloaded rfl) rfl rfl
      · exact foldEffect_idle rfl rfl rfl rfl rfl
    | tickFold cfg rebuild =>
      cases rebuild with
      | true =>
        have hiff := latches_iff (C := C) (r := r) (t := .tickFold cfg true) rfl (hloaded rfl)
          hread d.toLive cfg
        rcases foldTick_next (C := C) d.toLive a cfg true with ⟨⟨e, hf⟩, he⟩ | ⟨⟨roster, hf⟩, -, hu⟩
        · simp only [stretch, single, he]
          exact foldEffect_idle rfl (latches_of_error hiff hf) rfl rfl rfl
        · obtain ⟨hversion, hedit⟩ := hlatch (hiff.mpr ⟨roster, hf⟩)
          refine ⟨?_, List.forall_mem_nil _, fun _ => Or.inl hu⟩
          exact foldAt_folded (fun _ => (hat.activation rfl).trans hactivations.symm) hversion hedit
      | false =>
        have hcached := hcopies rfl
        rcases foldTick_next (C := C) d.toLive a cfg false with ⟨⟨e, hf⟩, -⟩ | ⟨-, -, hu⟩
        · cases hf
        · refine ⟨foldAt_folded (fun _ => (hat.activation rfl).trans hactivations.symm) ?_ ?_,
            List.forall_mem_nil _, fun _ => Or.inl hu⟩
          · exact hcached.trans hseen.symm
          · rw [hseen, hedits]
            exact hd.seen
    | tickSweep roster peer stale =>
      obtain ⟨-, hu⟩ := sweepNext_next (d.toLive.observe peer {} false) a roster stale
      exact ⟨hkeep rfl _ fun _ => rfl, List.forall_mem_nil _, fun _ => Or.inl hu⟩
    | tickStore roster connected =>
      refine ⟨foldAt_idle rfl rfl rfl, fun t' ht' => ?_, fun _ => Or.inr ?_⟩
      · obtain ⟨peer, -, rfl⟩ := List.mem_map.mp ht'
        exact hkeep rfl _ fun _ => rfl
      · exact hroster.trans ((hat.version_eq rfl).trans (hsame rfl).symm)
    | tickLive =>
      simp only [stretch, Live.refreshNext]
      split <;> exact foldEffect_idle rfl rfl rfl rfl rfl
    | tickRefresh peer live =>
      simp only [stretch, Live.refreshNext]
      split <;> exact foldEffect_idle rfl rfl rfl rfl rfl
    | dial peer =>
      simp only [stretch]
      split
      · exact ⟨hkeep rfl _ fun _ => rfl, List.forall_mem_nil _, hplain rfl rfl _⟩
      · exact foldEffect_idle rfl rfl rfl rfl rfl
    | incoming id =>
      simp only [stretch]
      split <;> exact foldEffect_idle rfl rfl rfl rfl rfl
    | handshake id =>
      simp only [stretch]
      split <;> exact foldEffect_idle rfl rfl rfl rfl rfl
    | gate peer id =>
      simp only [stretch, single, Live.gateConn]
      split
      · simp only [Live.registerConn]
        split <;> exact foldEffect_idle rfl rfl rfl rfl rfl
      · exact foldEffect_idle rfl rfl rfl rfl rfl
    | record dialed peer conn =>
      refine ⟨foldAt_idle rfl rfl rfl, fun t' ht' => ?_, hplain rfl rfl _⟩
      rcases List.mem_cons.mp ht' with rfl | ht'
      · exact foldAt_idle rfl rfl rfl
      · obtain rfl := List.mem_singleton.mp ht'
        exact foldAt_idle rfl rfl rfl
    | reader peer conn =>
      simp only [stretch]
      split <;> exact foldEffect_idle rfl rfl rfl rfl rfl
    | watch peer conn =>
      simp only [stretch, single, Live.watchConn]
      split
      · simp only
        split <;> exact foldEffect_idle rfl rfl rfl rfl rfl
      · exact foldEffect_idle rfl rfl rfl rfl rfl
    | disconnect f =>
      exact ⟨hkeep rfl _ fun _ => rfl, List.forall_mem_nil _, fun _ => Or.inl rfl⟩
    | disconnected f =>
      refine ⟨hkeep rfl _ fun _ => rfl, List.forall_mem_nil _, fun _ => Or.inr ?_⟩
      exact hroster.trans (hsame rfl).symm
    | refreshRead =>
      simp only [stretch, Live.readRefresh]
      split
      · exact foldEffect_unread (fun _ => hactivations.symm) rfl (latches_of_unloaded rfl) rfl rfl
      · exact foldEffect_idle rfl rfl rfl rfl rfl
    | refreshFold cfg =>
      have hiff := latches_iff (C := C) (r := r) (t := .refreshFold cfg) rfl (hloaded rfl)
        hread d.toLive cfg
      simp only [stretch, single, Live.foldRefresh]
      split
      · rename_i e hf
        exact foldEffect_idle rfl (latches_of_error hiff hf) rfl rfl rfl
      · rename_i roster hf
        obtain ⟨hversion, hedit⟩ := hlatch (hiff.mpr ⟨roster, hf⟩)
        refine ⟨foldAt_folded (fun _ => ?_) hversion hedit, List.forall_mem_nil _,
          fun _ => Or.inl rfl⟩
        exact (hat.activation rfl).trans hactivations.symm
    | refreshStore roster =>
      refine ⟨foldAt_idle rfl rfl rfl, List.forall_mem_nil _, fun _ => Or.inr ?_⟩
      exact hroster.trans ((hat.version_eq rfl).trans (hsame rfl).symm)
    | _ => exact foldEffect_idle rfl rfl rfl rfl rfl

/-- A stretch of a task keeps the content in order. -/
theorem inOrder_runTask (i : Inputs) (hd : InOrder d) (hat : FoldAt d r t) :
    InOrder (d.runTask C i r t).1 := by
  have hedits := (taskEffect (C := C) d i r t).edits
  obtain ⟨hseen, hroster⟩ := history_runTask (C := C) d i r t
  have hcached := hd.cached
  have hle : d.seen ≤ (d.runTask C i r t).1.seen := by
    rw [hseen]
    split
    · exact le_max_left _ _
    · exact le_rfl
  constructor
  · refine le_trans ?_ hle
    rw [hroster]
    split
    · exact le_rfl
    · split
      · rename_i hstores
        exact hat.folded (by cases t <;> first | rfl | cases hstores)
      · exact hcached
  · rw [hseen, hedits]
    split
    · rename_i hl
      have hcontent := hat.content r.version (by rw [Task.content?, hl, Bool.or_true]; rfl)
      exact max_le hd.seen hcontent.2
    · exact hd.seen

/-- Another stretch leaves a task in pace, unless it activates a network under a tick or has a fold
    take effect that is newer than the content of the task. -/
theorem FoldAt.others (h : FoldAt d r t) (hact : t.owes = true → d'.activations = d.activations)
    (hseen : d.seen ≤ d'.seen) (hcontent : ∀ v ∈ t.content? r, d'.seen ≤ v)
    (hedits : d.edits ≤ d'.edits) : FoldAt d' r t where
  activation ho := (h.activation ho).trans (hact ho).symm
  content v hv := ⟨hcontent v hv, le_trans (h.content v hv).2 hedits⟩
  folded hf := le_trans (h.folded hf) hseen

/-! ## 4. One stretch of a call -/

/-- The job works with no content, and has no snapshot. -/
def Job.idle (j : Job) : Bool :=
  j.fold?.all fun x => !x.2.owes && !x.2.folded && !x.2.folding

/-- What is in pace at every task that works with the document. -/
def JobAt (d : Device) (j : Job) : Prop := ∀ x ∈ j.fold?, FoldAt d x.1 x.2

theorem jobAt_idle (h : j.idle = true) : JobAt d j := by
  intro x hx
  rw [Job.idle, hx] at h
  simp only [Option.all_some, Bool.and_eq_true, Bool.not_eq_true'] at h
  obtain ⟨⟨ho, hf⟩, hfolding⟩ := h
  exact foldAt_idle ho hf (by rw [Task.latches, hfolding]; rfl)

/-- **A call works with no content**: where it refreshes the roster, it has yet to read. -/
theorem idle_run (d : Device) (i : Inputs) (hj : j.inTask = false) :
    (runJob C d i j).2.1.idle = true := by
  have hgoes := goesOn_run (C := C) d i j
  generalize (runJob C d i j).2.1 = j' at hgoes
  cases hgoes with
  | task r r' t t' => cases hj
  | refresh cfg r r' t t' => cases hj
  | _ => rfl

/-! ## 5. Every run -/

/-- What a stretch of a job does: the job and what it spawns go on in pace, and the history moves
    only where a fold takes effect or an activation commits. -/
structure PaceEffect (d : Device) (j : Job) (d' : Device) (j' : Job) (spawned : List Job) :
    Prop where
  order : InOrder d'
  next : JobAt d' j'
  spawned : ∀ j'' ∈ spawned, JobAt d' j''
  uncached : j.uncached?.isSome = true ∨ j.latches?.isSome = true →
    j'.uncached?.isSome = true ∨ d'.rosterAt = d'.seen
  cached : j.latches? = none → d.rosterAt = d.seen → d'.rosterAt = d'.seen
  seen : d'.seen = d.seen ∨ d.seen ≤ d'.seen ∧ j.latches? = some d'.seen
  activations : d'.activations = d.activations ∨ j.commits = true
  edits : d.edits ≤ d'.edits

/-- A stretch of a tick, or of the `refresh_roster` of a call. -/
theorem paceEffect_fold {r : Reading} {t : Task} {j' : Job} {spawned : List Job} (i : Inputs)
    (hd : InOrder d) (hj : j.fold? = some (r, t)) (hat : FoldAt d r t)
    (hcopies : j.copies = true → d.rosterAt = d.seen)
    (hj' : j'.fold? = some ((d.runTask C i r t).2.1, (d.runTask C i r t).2.2.1) ∨
      j'.fold? = none ∧ (d.runTask C i r t).2.2.1 = .done)
    (hspawned : ∀ j'' ∈ spawned, ∃ t'' ∈ (d.runTask C i r t).2.2.2,
      j''.fold? = some ((d.runTask C i r t).2.1, t'')) :
    PaceEffect d j (d.runTask C i r t).1 j' spawned := by
  have he := taskEffect (C := C) d i r t
  obtain ⟨hseen, hroster⟩ := history_runTask (C := C) d i r t
  have heff := foldEffect (C := C) i hd hat fun h => hcopies (by rw [Job.copies, hj]; exact h)
  have hlatches : j.latches? = if t.latches r then some r.version else none := by
    rw [Job.latches?, hj]
    rfl
  refine ⟨inOrder_runTask i hd hat, ?_, ?_, ?_, ?_, ?_, Or.inl he.activations, he.edits.ge⟩
  · intro x hx
    rcases hj' with hj' | ⟨hnone, -⟩
    · obtain rfl := Option.some.inj (hj'.symm.trans hx)
      exact heff.next
    · rw [hnone] at hx
      cases hx
  · intro j'' hj'' x hx
    obtain ⟨t'', ht'', hfold⟩ := hspawned j'' hj''
    obtain rfl := Option.some.inj (hfold.symm.trans hx)
    exact heff.spawned t'' ht''
  · intro h
    have hwhy : t.uncached = true ∨ t.latches r = true := by
      simpa [Job.uncached?, hlatches, hj] using h
    rcases heff.uncached hwhy with hu | hcached
    · rcases hj' with hj' | ⟨-, hdone⟩
      · exact Or.inl (by simp [Job.uncached?, hj', hu])
      · rw [hdone] at hu
        cases hu
    · exact Or.inr hcached
  · intro hnone hcached
    have hl : t.latches r = false := by simpa [hlatches] using hnone
    rw [hroster, hseen, hl]
    split
    · rfl
    · split
      · rename_i hstores
        exact hat.version_eq (by cases t <;> first | rfl | cases hstores)
      · exact hcached
  · cases hl : t.latches r with
    | false => exact Or.inl (by rw [hseen, hl]; rfl)
    | true =>
      obtain ⟨hle, -⟩ := hat.content r.version (by rw [Task.content?, hl, Bool.or_true]; rfl)
      rw [hl, if_pos rfl, max_eq_right hle] at hseen
      exact Or.inr ⟨by omega, by rw [hlatches, hl, hseen]; rfl⟩

/-- **A stretch of a job.** -/
theorem paceEffect (i : Inputs) (hd : InOrder d) (hat : JobAt d j)
    (hcopies : j.copies = true → d.rosterAt = d.seen) :
    PaceEffect d j (runJob C d i j).1 (runJob C d i j).2.1 (runJob C d i j).2.2 := by
  cases hj : j.inTask with
  | true =>
    cases j with
    | task r t =>
      refine paceEffect_fold (C := C) i hd rfl (hat (r, t) rfl) hcopies (Or.inl rfl) ?_
      intro j'' hj''
      obtain ⟨t'', ht'', rfl⟩ := List.mem_map.mp hj''
      exact ⟨t'', ht'', rfl⟩
    | refresh cfg r t =>
      refine paceEffect_fold (C := C) i hd rfl (hat (r, t) rfl) hcopies ?_ (List.forall_mem_nil _)
      show (refreshed cfg _ _).fold? = _ ∨ (refreshed cfg _ _).fold? = _ ∧ _
      unfold refreshed
      split
      · rename_i hdone
        exact Or.inr ⟨rfl, hdone⟩
      · exact Or.inl rfl
    | _ => cases hj
  | false =>
    have hfold : j.fold? = none := by cases j <;> first | rfl | cases hj
    have htask : j.isTask = false := by cases j <;> first | rfl | cases hj
    have he := callEffect (C := C) d i j hj
    have hidle := idle_run (C := C) d i hj
    have hcached : d.rosterAt ≤ d.seen := hd.cached
    have hseen : d.seen ≤ d.edits := hd.seen
    rw [runJob_call d i htask] at he hidle ⊢
    refine ⟨⟨?_, ?_⟩, jobAt_idle hidle, List.forall_mem_nil _, ?_, ?_,
      Or.inl he.seen, ?_, he.edits⟩
    · rw [he.rosterAt, he.seen]
      split
      · exact le_rfl
      · exact hcached
    · rw [he.seen]
      exact le_trans hseen he.edits
    · intro h
      simp [Job.uncached?, Job.latches?, hfold] at h
    · intro _ hsame
      rw [he.rosterAt, he.seen]
      split
      · rfl
      · exact hsame
    · rw [he.activations]
      split
      · rename_i hcommits
        exact Or.inr hcommits
      · exact Or.inl rfl

/-- **Nobody has overtaken a tick**: every task is in pace, and a roster that is folded is cached or
    on its way to the cache. -/
structure InPace (w : World Device Job) : Prop where
  inv : w.Inv InOrder JobAt
  cached : w.shared.rosterAt = w.shared.seen ∨ ∃ j ∈ w.tasks, j.uncached?.isSome = true

/-- What waits to be cached is the newest that has taken effect. -/
theorem InPace.uncached_eq {v : Nat} (h : InPace w) (hj : j ∈ w.tasks) (hv : v ∈ j.uncached?) :
    v = w.shared.seen := by
  obtain ⟨x, hx, hsome⟩ := Option.bind_eq_some_iff.mp hv
  obtain ⟨hu, hversion⟩ := Option.ite_none_right_eq_some.mp hsome
  obtain rfl := Option.some.inj hversion
  have hfolded : x.2.folded = true := by
    cases hx : x.2 <;> rw [hx] at hu <;> first | rfl | cases hu
  exact (h.inv.tasks j hj x hx).version_eq hfolded

/-- Where a tick may copy the cached roster, that is the newest. -/
theorem InPace.cached_of_copies {k : Nat} (h : InPace w) (hk : w.tasks[k]? = some j)
    (ha : KeepsPace w (.go k i)) (hj : j.copies = true) : w.shared.rosterAt = w.shared.seen := by
  rcases h.cached with hcached | ⟨j', hj', hu⟩
  · exact hcached
  · obtain ⟨v, hv⟩ := Option.isSome_iff_exists.mp hu
    have hle := (ha j hk).2.2 hj j' hj' v hv
    rw [h.uncached_eq hj' hv] at hle
    exact le_antisymm h.inv.shared.cached hle

/-- What starts has read nothing. -/
theorem idle_of_starts (h : j.starts = true) : j.idle = true := by
  cases j with
  | task r t => cases t <;> first | rfl | cases h
  | _ => first | rfl | cases h

/-- What is dropped has read nothing. -/
theorem idle_of_drop {j' : Job} (h : j.drop = some j') : j'.idle = true := by
  rcases Job.drop_cases h with ⟨-, rfl⟩ | ⟨r, t, t', rfl, ht, rfl⟩
  · rfl
  · obtain ⟨rfl, -⟩ := Task.drop_cases ht
    rfl

/-- Who is dropped with a fold that is not cached is a call. -/
theorem requested_of_uncached {j' : Job} (h : j.drop = some j') (hu : j.uncached?.isSome = true) :
    j.requested = true := by
  rcases Job.drop_cases h with ⟨hreq, -⟩ | ⟨r, t, t', rfl, ht, -⟩
  · exact hreq
  · rcases (Task.drop_cases ht).2 with ⟨peer, rfl⟩ | ⟨peer, conn, rfl⟩ <;> cases hu

/-- A stretch that overtakes nobody. -/
theorem InPace.paceEffect {k : Nat} (h : InPace w) (ha : KeepsPace w (.go k i))
    (hk : w.tasks[k]? = some j) :
    PaceEffect w.shared j (runJob C w.shared i j).1 (runJob C w.shared i j).2.1
      (runJob C w.shared i j).2.2 :=
  Nullgate.paceEffect i h.inv.shared (h.inv.tasks _ (List.mem_of_getElem? hk))
    (h.cached_of_copies hk ha)

/-- The tasks stay in pace. -/
theorem InPace.inv_step (h : InPace w) (ha : KeepsPace w a) :
    ((lifecycle C).step w a).Inv InOrder JobAt := by
  refine Program.step_inv_others h.inv (fun k i j hact hk => ?_) (fun j hj hstarts => ?_)
    (fun j j' hd hj => ?_) fun e hact => ?_
  · subst hact
    have heff := h.paceEffect (C := C) ha hk
    refine ⟨heff.order, heff.next, heff.spawned, fun j' hj' hat => ?_⟩
    obtain ⟨hcommits, hlatches, -⟩ := ha j hk
    intro x hx
    refine (hat x hx).others (fun ho => ?_) ?_ (fun v hv => ?_) heff.edits
    · rcases heff.activations with hsame | hcommit
      · exact hsame
      · have hidle := (hcommits hcommit).2 j' (List.mem_of_mem_eraseIdx hj')
        rw [Job.owes, hx] at hidle
        exact absurd ho (by simpa using hidle)
    · rcases heff.seen with hsame | ⟨hle, -⟩
      · exact hsame.ge
      · exact hle
    · rcases heff.seen with hsame | ⟨-, hnew⟩
      · rw [show ((lifecycle C).stretch w.shared i j).1.seen = _ from hsame]
        exact ((hat x hx).content v hv).1
      · exact hlatches _ hnew j' hj' v (by rw [Job.content?, hx]; exact hv)
  · exact jobAt_idle (idle_of_starts hstarts)
  · exact jobAt_idle (idle_of_drop hd)
  · have harrive := arriveEffect w.shared e
    have horder := h.inv.shared
    refine ⟨⟨?_, ?_⟩, fun j hj x hx => ?_⟩
    · show (arrive w.shared e).rosterAt ≤ (arrive w.shared e).seen
      rw [harrive.rosterAt, harrive.seen]
      exact horder.cached
    · show (arrive w.shared e).seen ≤ (arrive w.shared e).edits
      rw [harrive.seen]
      exact le_trans horder.seen harrive.edits
    · refine (hj x hx).others (fun _ => harrive.activations) harrive.seen.ge (fun v hv => ?_)
        harrive.edits
      exact le_trans harrive.seen.le ((hj x hx).content v hv).1

/-- **Who waits to be cached** behind a stretch: the job that has run, or another. -/
theorem PaceEffect.cached_or {k : Nat} {j' : Job} {spawned : List Job}
    (heff : PaceEffect w.shared j d' j' spawned) (hk : w.tasks[k]? = some j)
    (h : w.shared.rosterAt = w.shared.seen ∨ ∃ j ∈ w.tasks, j.uncached?.isSome = true) :
    d'.rosterAt = d'.seen ∨ ∃ j'' ∈ w.tasks.set k j' ++ spawned, j''.uncached?.isSome = true := by
  have hnext : j.uncached?.isSome = true ∨ j.latches?.isSome = true → d'.rosterAt = d'.seen ∨
      ∃ j'' ∈ w.tasks.set k j' ++ spawned, j''.uncached?.isSome = true := fun hwhy =>
    (heff.uncached hwhy).symm.imp_right fun hu => ⟨j', (mem_stretch_iff hk).mpr (Or.inl rfl), hu⟩
  rcases h with hcached | ⟨j₀, hj₀, hu⟩
  · cases hl : j.latches? with
    | none => exact Or.inl (heff.cached hl hcached)
    | some v => exact hnext (Or.inr (by rw [hl]; rfl))
  · rcases (mem_iff_eraseIdx hk).mp hj₀ with rfl | hother
    · exact hnext (Or.inl hu)
    · exact Or.inr ⟨j₀, (mem_stretch_iff hk).mpr (Or.inr (Or.inl hother)), hu⟩

/-- A roster that is folded stays on its way to the cache. -/
theorem InPace.cached_step (h : InPace w) (ha : KeepsPace w a) :
    ((lifecycle C).step w a).shared.rosterAt = ((lifecycle C).step w a).shared.seen ∨
      ∃ j ∈ ((lifecycle C).step w a).tasks, j.uncached?.isSome = true := by
  rcases (lifecycle C).step_cases w a with ⟨-, -, he⟩ | ⟨k, i, j, rfl, hk, he⟩ |
    ⟨j, rfl, -, he⟩ | ⟨k, j, j', rfl, hk, hd, he⟩ | ⟨e, rfl, he⟩
  · rw [he]
    exact h.cached
  · rw [he]
    exact (h.paceEffect ha hk).cached_or hk h.cached
  · rw [he]
    exact h.cached.imp_right fun h' => by
      obtain ⟨j', hj', hu⟩ := h'
      exact ⟨j', List.mem_append_left _ hj', hu⟩
  · rw [he]
    rcases h.cached with hcached | ⟨j₀, hj₀, hu⟩
    · exact Or.inl hcached
    · rcases (mem_iff_eraseIdx hk).mp hj₀ with rfl | hother
      · -- a call whose fold is not cached: the cached roster is as new
        obtain ⟨v, hv⟩ := Option.isSome_iff_exists.mp hu
        have hreq : j₀.requested = true := requested_of_uncached hd hu
        have hle := ha j₀ hk hreq v hv
        rw [h.uncached_eq hj₀ hv] at hle
        exact Or.inl (le_antisymm h.inv.shared.cached hle)
      · exact Or.inr ⟨j₀, (mem_set_iff hk).mpr (Or.inr hother), hu⟩
  · rw [he]
    have harrive := arriveEffect w.shared e
    refine h.cached.imp_left fun hcached => ?_
    show (arrive w.shared e).rosterAt = (arrive w.shared e).seen
    rw [harrive.rosterAt, harrive.seen]
    exact hcached

/-- **A step that overtakes nobody keeps everybody in pace.** -/
theorem inPace_step (h : InPace w) (ha : KeepsPace w a) : InPace ((lifecycle C).step w a) :=
  ⟨h.inv_step ha, h.cached_step ha⟩

/-- A tick that has nothing to act with leaves the network alone. -/
theorem untouched_of_idle (i : Inputs) (ht : t.ofTick = true) (ho : t.owes = false) :
    Untouched d (d.runTask C i r t).1 (d.runTask C i r t).2.2.2 := by
  cases t with
  | tickStart => exact ⟨rfl, rfl, rfl, rfl, rfl, rfl, rfl⟩
  | tickRead nowCoarse =>
    simp only [Device.runTask, Task.folding, Bool.false_and, Bool.false_eq_true, if_false, stretch,
      single, Live.readTick, Device.record]
    split <;> exact ⟨rfl, rfl, rfl, rfl, rfl, rfl, rfl⟩
  | tickLive => exact ⟨rfl, rfl, rfl, rfl, rfl, rfl, rfl⟩
  | tickRefresh peer live => exact ⟨rfl, rfl, rfl, rfl, rfl, rfl, rfl⟩
  | record dialed peer conn =>
    cases dialed with
    | true => cases ho
    | false => cases ht
  | _ => first | cases (show true = false from ho) | cases (show false = true from ht)

/-- A tick that has a roster has folded the newest content, or copies it. -/
theorem InPace.folds_newest {k : Nat} {cfg : StoredConfig} {rebuild : Bool} (h : InPace w)
    (ha : KeepsPace w (.go k i)) (hk : w.tasks[k]? = some (.task r (.tickFold cfg rebuild)))
    (hl : rebuild = true → (Task.tickFold cfg true).latches r = true) :
    (w.shared.reading r (.tickFold cfg rebuild)).activation = w.shared.activations ∧
      w.shared.seen ≤ (w.shared.reading r (.tickFold cfg rebuild)).version := by
  have hat : FoldAt w.shared r (.tickFold cfg rebuild) :=
    h.inv.tasks _ (List.mem_of_getElem? hk) (r, _) rfl
  cases rebuild with
  | true =>
    have hcontent := hat.content r.version (by rw [Task.content?, hl rfl, Bool.or_true]; rfl)
    exact ⟨hat.activation rfl, hcontent.1⟩
  | false => exact ⟨hat.activation rfl, (h.cached_of_copies hk ha rfl).ge⟩

/-- Whose fold fails ends. -/
theorem runTask_unread (i : Inputs) {cfg : StoredConfig}
    (hloaded : r.loaded.isSome = true) (hl : (Task.tickFold cfg true).latches r = false) :
    d.runTask C i r (.tickFold cfg true) = (d, r, .done, []) := by
  obtain ⟨doc, loaded, activation, version⟩ := r
  obtain ⟨x, rfl⟩ := Option.isSome_iff_exists.mp hloaded
  cases x with
  | error e => rfl
  | ok entries => cases hl

/-- **A tick in pace acts on its own.** -/
theorem actsOnOwn_of_inPace (h : InPace w) (ha : KeepsPace w a) : ActsOnOwn C w a := by
  cases a with
  | go k i =>
    intro r t hk ht
    have hat : FoldAt w.shared r t := h.inv.tasks _ (List.mem_of_getElem? hk) (r, t) rfl
    cases ho : t.owes with
    | false => exact Or.inl (untouched_of_idle i ht ho)
    | true =>
      have hactivation := hat.activation ho
      rcases w.shared.runTask_cases (C := C) i r t with
        ⟨hf, hl, he⟩ | ⟨hloaded, l, a, t', spawned, -, -, he⟩
      · -- it reads the document
        rw [he]
        exact Or.inl ⟨rfl, rfl, rfl, rfl, rfl, rfl, rfl⟩
      · rw [he]
        cases hfolded : t.folded with
        | true =>
          have hversion := hat.version_eq hfolded
          have hreading : w.shared.reading r t = r := by
            cases t <;> first | rfl | cases hfolded
          right
          show (w.shared.reading r t).activation = _ ∧ _ ≤ (w.shared.reading r t).version
          rw [hreading]
          exact ⟨hactivation, hversion.ge⟩
        | false =>
          cases t with
          | tickFold cfg rebuild =>
            by_cases hl : rebuild = true → (Task.tickFold cfg true).latches r = true
            · exact Or.inr (h.folds_newest ha hk hl)
            · -- the document could not be read
              obtain ⟨rfl, hfail⟩ := Classical.not_imp.mp hl
              rw [← he, runTask_unread i (hloaded rfl) (Bool.not_eq_true _ ▸ hfail)]
              exact Or.inl ⟨rfl, rfl, rfl, rfl, rfl, rfl, rfl⟩
          | record dialed peer conn =>
            cases dialed with
            | true => cases hfolded
            | false => cases ho
          | _ =>
            first
              | cases (show true = false from hfolded)
              | cases (show false = true from ho)
              | cases (show false = true from ht)
  | _ => trivial

/-! ## 6. Who is evicted was a member -/

/-- The task of a fold runs as it does alone. -/
theorem runJob_fold (d : Device) (i : Inputs) (hj : j.fold? = some (r, t)) :
    (runJob C d i j).1 = (d.runTask C i r t).1 := by
  cases j with
  | task r' t' =>
    cases hj
    rfl
  | refresh cfg r' t' =>
    cases hj
    rfl
  | _ => cases hj

/-- **What has taken effect stays.** -/
theorem seen_le_step (w : World Device Job) (a : Act Job Inputs Arrival) :
    w.shared.seen ≤ ((lifecycle C).step w a).shared.seen := by
  rcases (lifecycle C).step_cases w a with ⟨-, -, he⟩ | ⟨k, i, j, -, -, he⟩ | ⟨j, -, -, he⟩ |
    ⟨k, j, j', -, -, -, he⟩ | ⟨e, -, he⟩
  · rw [he]
  · rw [he]
    show w.shared.seen ≤ (runJob C w.shared i j).1.seen
    cases hfold : j.fold? with
    | none =>
      have hcall : j.inTask = false := by cases j <;> first | rfl | cases hfold
      exact (callEffect w.shared i j hcall).seen.ge
    | some x =>
      rw [runJob_fold w.shared i hfold, (history_runTask w.shared i x.1 x.2).1]
      split
      · exact le_max_left _ _
      · exact le_rfl
  · rw [he]
  · rw [he]
  · rw [he]
    exact (arriveEffect w.shared e).seen.ge

theorem seen_le_run (w : World Device Job) (l : List (Act Job Inputs Arrival)) :
    w.shared.seen ≤ (run (lifecycle C).step w l).shared.seen :=
  run_invariant (I := fun w' => w.shared.seen ≤ w'.shared.seen)
    (fun w' a _ h => h.trans (seen_le_step w' a)) le_rfl

/-- What a fold has read has taken effect behind it. -/
theorem version_le_seen (h : FoldsItself C r w a) :
    r.version ≤ ((lifecycle C).step w a).shared.seen := by
  cases a with
  | go k i =>
    obtain ⟨j, t, hk, hfold, cfg, entries, ht, hloaded, -⟩ := h
    have hl : t.latches r = true := by
      rw [Task.latches, hloaded, Task.folding_of_folds? ht]
      rfl
    rw [Program.step_go hk]
    show r.version ≤ (runJob C w.shared i j).1.seen
    rw [runJob_fold w.shared i hfold, (history_runTask w.shared i r t).1, if_pos hl]
    exact le_max_right _ _
  | _ => exact h.elim

theorem owes_of_folds? {cfg : StoredConfig} (h : t.folds? = some cfg) : t.owes = true := by
  unfold Task.folds? at h
  split at h
  · rfl
  · rfl
  · cases h

theorem owes_of_shows {me : Id} (h : j.shows me = true) : j.owes = true := by
  obtain ⟨x, hx, hshows⟩ := (Option.any_eq_true _ _).mp h
  rw [Job.owes, hx]
  show x.2.owes = true
  generalize x.2 = t at hshows
  cases t <;> first | rfl | cases hshows

/-- **A device becomes a member of an activation by a fold of that activation.** -/
theorem belongs_in_step {n : Nat} (h : InPace w) (ha : KeepsPace w a)
    (hn : ((lifecycle C).step w a).shared.activations = n) (hs : Belongs ((lifecycle C).step w a)) :
    (w.shared.activations = n ∧ Belongs w) ∨ ∃ r, FoldsItself C r w a ∧ r.activation = n := by
  have hold : w.shared.activations = n ∨ ∃ k i j, a = .go k i ∧ w.tasks[k]? = some j ∧
      j.commits = true := by
    rcases (lifecycle C).step_cases w a with ⟨-, -, he⟩ | ⟨k, i, j, hact, hk, he⟩ |
      ⟨j, -, -, he⟩ | ⟨k, j, j', -, -, -, he⟩ | ⟨e, -, he⟩
    · exact Or.inl (by rw [← hn, he])
    · subst hact
      have heff := paceEffect (C := C) i h.inv.shared (h.inv.tasks _ (List.mem_of_getElem? hk))
        (h.cached_of_copies hk ha)
      rw [he] at hn
      rcases heff.activations with hsame | hcommits
      · exact Or.inl (hsame.symm.trans hn)
      · exact Or.inr ⟨k, i, j, rfl, hk, hcommits⟩
    · exact Or.inl (by rw [← hn, he])
    · exact Or.inl (by rw [← hn, he])
    · exact Or.inl (by rw [← hn, he]; exact (arriveEffect w.shared e).activations.symm)
  rcases belongs_step hs with hshown | ⟨r, hself⟩
  · rcases hold with hsame | ⟨k, i, j, rfl, hk, hcommits⟩
    · exact Or.inl ⟨hsame, hshown⟩
    · -- who activates a network is no member
      obtain ⟨hnot, hidle⟩ := (ha j hk).1 hcommits
      rcases hshown with hshown | ⟨j', hj', hshows⟩
      · rw [hnot] at hshown
        cases hshown
      · have howes := owes_of_shows hshows
        rw [hidle j' hj'] at howes
        cases howes
  · cases a with
    | go k i =>
      obtain ⟨j, t, hk, hfold, cfg, entries, ht, hread⟩ := hself
      rcases hold with hsame | ⟨k', i', j', hact, hk', hcommits⟩
      · refine Or.inr ⟨r, ⟨j, t, hk, hfold, cfg, entries, ht, hread⟩, ?_⟩
        have hat : FoldAt w.shared r t := h.inv.tasks _ (List.mem_of_getElem? hk) (r, t) hfold
        exact (hat.activation (owes_of_folds? ht)).trans hsame
      · cases hact
        obtain rfl := Option.some.inj (hk'.symm.trans hk)
        cases j' with
        | committing cfg doc author p => cases hfold
        | _ => cases hcommits
    | _ => exact hself.elim

/-- **A tick that evicts the device** works with the newest content of the activation it has read,
    and the latch is set. -/
theorem evicts_newest (h : InPace w) (ha : KeepsPace w a) (he : Evicts C r w a) :
    r.activation = w.shared.activations ∧ w.shared.seen ≤ r.version ∧ Belongs w := by
  cases a with
  | go k i =>
    obtain ⟨r', cfg, rebuild, hk, rfl, hnext⟩ := he
    rcases w.shared.runTask_cases (C := C) i r' (.tickFold cfg rebuild) with
      ⟨-, -, hrun⟩ | ⟨hloaded, l, b, t', spawned, -, hs, hrun⟩
    · rw [hrun] at hnext
      cases hnext
    · have hl : rebuild = true → (Task.tickFold cfg true).latches r' = true := by
        intro hrebuild
        subst hrebuild
        by_contra hl
        rw [runTask_unread i (hloaded rfl) (Bool.not_eq_true _ ▸ hl)] at hnext
        cases hnext
      obtain ⟨hactivation, hversion⟩ := h.folds_newest ha hk hl
      rw [hrun] at hnext ⊢
      refine ⟨hactivation, hversion, Or.inl (Live.shown_iff.mpr (Or.inl ?_))⟩
      have hfold : (w.shared.foldTick C b cfg rebuild).2 = .disconnected true := by
        rw [← hnext]
        exact congrArg (fun x => x.2.1) hs
      rcases w.shared.foldTick_cases C b cfg rebuild with
        ⟨e, -, hend⟩ | ⟨roster, -, hw, -⟩ | ⟨roster, -, hend⟩
      · rw [hend] at hfold
        cases hfold
      · exact hw
      · rw [hend] at hfold
        have hroster := Live.roster?_sweepNext
          { w.shared.toLive with
            wasMember := w.shared.wasMember || roster.isMember w.shared.myId
            routes := if rebuild then .fromRoster roster else w.shared.routes } b roster
          (b.staleOrder.list (w.shared.stale roster))
        rw [hfold] at hroster
        cases hroster
  | _ => exact he.elim

/-- **Who is evicted was a member**, of the same activation and of no newer content. -/
theorem evicts_wasMember {l : List (Act Job Inputs Arrival)} (h0 : InPace ⟨d, []⟩)
    (hl : EachStep (lifecycle C).step KeepsPace ⟨d, []⟩ l)
    (ha : KeepsPace (run (lifecycle C).step ⟨d, []⟩ l) a)
    (he : Evicts C r (run (lifecycle C).step ⟨d, []⟩ l) a) : WasMember C d l r := by
  have hinPace : ∀ before after, l = before ++ after →
      InPace (run (lifecycle C).step ⟨d, []⟩ before) := by
    intro before after hsplit
    rw [hsplit, eachStep_append] at hl
    exact run_invariant_of_eachStep (fun _ _ h ha => inPace_step h ha) h0 hl.1
  obtain ⟨hactivation, hversion, hshown⟩ :=
    evicts_newest (hinPace l [] (List.append_nil l).symm) ha he
  have hbrought := run_brought (l := l)
    (B := fun w => w.shared.activations = r.activation ∧ Belongs w)
    (A := fun w a => InPace w → KeepsPace w a → ∃ r', FoldsItself C r' w a ∧
      r'.activation = r.activation)
    (fun w a hb => or_iff_not_imp_left.mpr fun hnot hpace hkeeps =>
      (belongs_in_step hpace hkeeps hb.1 hb.2).resolve_left hnot) ⟨hactivation.symm, hshown⟩
  rcases hbrought with ⟨hstart, hshown⟩ | ⟨before, b, after, hsplit, hfolds⟩
  · rcases hshown with hshown | ⟨j, hj, -⟩
    · exact Or.inr ⟨hshown, hstart.symm⟩
    · cases hj
  · have hkeeps : KeepsPace (run (lifecycle C).step ⟨d, []⟩ before) b :=
      eachStep_iff.mp hl before b after hsplit
    obtain ⟨r', hself, hsame⟩ := hfolds (hinPace before (b :: after) hsplit) hkeeps
    refine Or.inl ⟨before, b, after, r', hsplit, hself, hsame, ?_⟩
    calc r'.version
        ≤ ((lifecycle C).step (run (lifecycle C).step ⟨d, []⟩ before) b).shared.seen :=
          version_le_seen hself
      _ ≤ (run (lifecycle C).step ⟨d, []⟩ l).shared.seen := by
          rw [hsplit, run_append, run_cons]
          exact seen_le_run _ after
      _ ≤ r.version := hversion

/-! ## 7. A tick and its network -/

/-- **A tick acts on its own**, as long as nobody overtakes it. Let calls, ticks and their dials run
    on a device, in any order and with any failure and any drop. Where no activation commits over a
    tick, a dial or a `refresh_roster` that has read another network, nor on a device that is still
    a member, no fold takes effect over older content, and no tick copies a roster that is about to
    be replaced, every tick touches the network only in the activation it has read, with the newest
    content that has taken effect; and it evicts the device only behind a fold of that activation
    that has had the device. -/
theorem tick_acts_on_own (C : Crates) (d : Device) (hd : d.seen ≤ d.edits)
    (hcached : d.rosterAt = d.seen) (l : List (Act Job Inputs Arrival))
    (hl : EachStep (lifecycle C).step KeepsPace ⟨d, []⟩ l) : TicksOnOwn C d l := by
  have h0 : InPace ⟨d, []⟩ :=
    ⟨⟨⟨hcached.le, hd⟩, List.forall_mem_nil _⟩, Or.inl hcached⟩
  constructor
  · exact eachStep_of_invariant (J := InPace) h0 (fun _ _ h ha => inPace_step h ha)
      (fun _ _ h ha => actsOnOwn_of_inPace h ha) hl
  · intro before a after r hsplit he
    rw [hsplit, eachStep_append] at hl
    exact evicts_wasMember h0 hl.1 hl.2.1 he

namespace Sample

/-- A tick at place `k`, up to the end of its fold. -/
def ticks (k : Nat) : List (Act Job Inputs Arrival) :=
  .start (.task {} .tickStart) :: List.replicate 3 (.go k {})

/-- A tick loads the document of a network that is being created; then the creation publishes its
    entries and ends, and the tick folds what it has loaded. -/
def overtakes : List (Act Job Inputs Arrival) :=
  (creates 0 8).take 4 ++ ticks 1 ++ List.replicate 8 (.go 0 (fresh 8)) ++ [.go 1 {}]

/-- The tick is about to reset the state, with the content from before the first entry. -/
def wiping : Job → Bool
  | .task r (.disconnected true) => r.version == 0
  | _ => false

end Sample

/-- A tick behind a creation. -/
theorem tick_acts_on_own_sample :
    TicksOnOwn .plain Sample.single
      (Sample.creates 0 8 ++ Sample.ticks 1 ++ List.replicate 3 (.go 1 {})) :=
  tick_acts_on_own .plain Sample.single le_rfl rfl _ (by decide +kernel)

/-- **A tick can wipe the network that was just created**: it has folded the document as it was
    before the device was in it. -/
theorem tick_not_on_own :
    ¬ ∀ d : Device, d.seen ≤ d.edits → d.rosterAt = d.seen → ∀ l : List (Act Job Inputs Arrival),
      TicksOnOwn .plain d l := by
  intro h
  have hacts := (eachStep_append.mp
    (h Sample.single le_rfl rfl (Sample.overtakes ++ [.go 1 {}])).acts).2.1
  have hsome : (run (lifecycle .plain).step ⟨Sample.single, []⟩ Sample.overtakes).tasks[1]?.any
      Sample.wiping = true := by decide +kernel
  have hseen : (run (lifecycle .plain).step ⟨Sample.single, []⟩ Sample.overtakes).shared.seen = 2 :=
    by decide +kernel
  have hdoc : (run (lifecycle .plain).step ⟨Sample.single, []⟩ Sample.overtakes).shared.doc ≠
      none := by decide +kernel
  generalize run (lifecycle .plain).step ⟨Sample.single, []⟩ Sample.overtakes = w at *
  obtain ⟨j, hj, hwiping⟩ := (Option.any_eq_true _ _).mp hsome
  obtain ⟨r, rfl, hversion⟩ : ∃ r, j = .task r (.disconnected true) ∧ r.version = 0 := by
    unfold Sample.wiping at hwiping
    split at hwiping
    · exact ⟨_, rfl, by simpa using hwiping⟩
    · cases hwiping
  rcases hacts r _ hj rfl with huntouched | ⟨-, hle⟩
  · have hreset := (taskEffect (C := .plain) w.shared {} r (.disconnected true)).doc
    exact hdoc (huntouched.doc.symm.trans hreset)
  · have hreading : (w.shared.runTask .plain {} r (.disconnected true)).2.1 = r := rfl
    rw [hreading] at hle
    omega

end Nullgate
