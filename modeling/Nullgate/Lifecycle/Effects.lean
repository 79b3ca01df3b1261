/-
  File:      Nullgate/Lifecycle/Effects.lean
  Subject:   WHAT A STRETCH DOES TO THE NETWORK OF THE DEVICE: config, disk, document.

  * `taskEffect`: the tasks of the engine touch them in one place each; `resetState` gives up
    the document, `forget` the config and the disk;
  * `GoesOn`, `goesOn_run`: how every job goes on, edge by edge;
  * `callEffect`: what the calls do to the history: which of them go online, who commits an
    activation, and when a document changes;
  * `arriveEffect`: nothing of it happens outside.
-/
import Nullgate.Engine.Stretches
import Nullgate.Lifecycle.Jobs

namespace Nullgate

open Nullgate.Lib

variable {C : Crates}

/-! ## 1. The tasks of the engine -/

namespace Task

/-- `teardown` forgets the config next. -/
def forgets : Task → Bool
  | .forgetConfig => true
  | _ => false

/-- `soft_disconnect` resets the state next. -/
def resets : Task → Bool
  | .disconnected _ => true
  | _ => false

end Task

/-- What the engine's tasks share of the network: config, disk and document; and who the device
    is. -/
structure SameNetwork (l l' : Live) : Prop where
  myId : l'.myId = l.myId
  config : l'.config = l.config
  disk : l'.disk = l.disk
  doc : l'.doc = l.doc

/-- A sweep leaves the network alone. -/
theorem SameNetwork.sweepNext {l l' : Live} (h : SameNetwork l l') (a : Answers) (roster : Roster)
    (stale : List (Id × Conn)) : SameNetwork l (l'.sweepNext a roster stale).1 := by
  rw [Live.sweepNext_eq]
  exact ⟨h.myId, h.config, h.disk, h.doc⟩

/-- **A stretch of an engine task leaves the network alone**, unless it resets or forgets. -/
theorem sameNetwork_stretch (l : Live) (a : Answers) (t : Task) (hr : t.resets = false)
    (hf : t.forgets = false) : SameNetwork l (stretch C l a t).1 := by
  have hs := stretched C l a t
  generalize (stretch C l a t).1 = l', (stretch C l a t).2.1 = t',
    (stretch C l a t).2.2 = spawned at hs
  cases hs with
  | enforce hroster hlive hnext =>
    subst hnext hlive
    refine SameNetwork.sweepNext ?_ a _ _
    exact ⟨rfl, rfl, rfl, rfl⟩
  | sweep hnext =>
    subst hnext
    refine SameNetwork.sweepNext ?_ a _ _
    exact ⟨rfl, rfl, rfl, rfl⟩
  | register ht hnext =>
    subst hnext
    exact ⟨rfl, rfl, rfl, rfl⟩
  | reset ht' => cases hr
  | forget => cases hf
  | _ => exact ⟨rfl, rfl, rfl, rfl⟩

namespace Device

variable (d : Device) (i : Inputs) (r : Reading) (t : Task)

/-- **How a task of the engine goes on**: it reads the document, or runs its stretch. -/
theorem runTask_cases :
    (t.folding = true ∧ r.loaded = none ∧ d.runTask C i r t =
      (d, { r with loaded := r.doc.map (d.load i), version := d.edits }, t, [])) ∨
    ((t.folding = true → r.loaded.isSome = true) ∧
      ∃ l a t' spawned, a = { i.toAnswers with loaded := r.loaded.getD i.loaded } ∧
        stretch C d.toLive a t = (l, t', spawned) ∧
        d.runTask C i r t = ({ d with toLive := l }.record r t, d.reading r t, t', spawned)) := by
  unfold runTask
  split
  · rename_i h
    rw [Bool.and_eq_true, Option.isNone_iff_eq_none] at h
    exact Or.inl ⟨h.1, h.2, rfl⟩
  · rename_i h
    refine Or.inr ⟨fun hf => ?_, _, _, _, _, rfl, rfl, rfl⟩
    cases hl : r.loaded with
    | none => simp [hf, hl] at h
    | some x => rfl

/-- What a stretch leaves besides concerns the history only, and the file that is cut off. -/
theorem record_eq : d.record r t =
    { d with
      seen := (d.record r t).seen
      rosterAt := (d.record r t).rosterAt
      cborTorn := !t.forgets && d.cborTorn } := by
  cases t with
  | tickFold cfg rebuild =>
    cases rebuild with
    | true =>
      simp only [record]
      split <;> rfl
    | false => rfl
  | refreshFold cfg =>
    simp only [record]
    split <;> rfl
  | _ => rfl

end Device

/-! ## 2. Their effect on the device -/

/-- What the theorems about the calls speak of, behind a stretch of a task. -/
structure TaskEffect (d : Device) (t : Task) (d' : Device) : Prop where
  myId : d'.myId = d.myId
  config : d'.config = if t.forgets then none else d.config
  disk : d'.disk = if t.forgets then {} else d.disk
  torn : d'.cborTorn = (!t.forgets && d.cborTorn)
  doc : d'.doc = if t.resets then none else d.doc
  docs : d'.docs = d.docs
  wantsOffline : d'.wantsOffline = d.wantsOffline
  activations : d'.activations = d.activations
  edits : d'.edits = d.edits

/-- **The effect of a task on the network of the device.** -/
theorem taskEffect (d : Device) (i : Inputs) (r : Reading) (t : Task) :
    TaskEffect d t (d.runTask C i r t).1 := by
  rcases d.runTask_cases (C := C) i r t with ⟨hf, hl, he⟩ | ⟨-, l, a, t', spawned, -, hs, he⟩
  · have hforgets : t.forgets = false := by cases t <;> first | rfl | cases hf
    have hresets : t.resets = false := by cases t <;> first | rfl | cases hf
    rw [he]
    constructor <;> simp [hforgets, hresets]
  · have hl : l = (stretch C d.toLive a t).1 := by rw [hs]
    have hnet : l.myId = d.myId ∧ l.config = (if t.forgets then none else d.config) ∧
        l.disk = (if t.forgets then {} else d.disk) ∧
        l.doc = if t.resets then none else d.doc := by
      by_cases hr : t.resets = true
      · cases t with
        | disconnected forget => exact hl ▸ ⟨rfl, rfl, rfl, rfl⟩
        | _ => cases hr
      · by_cases hf : t.forgets = true
        · cases t with
          | forgetConfig => exact hl ▸ ⟨rfl, rfl, rfl, rfl⟩
          | _ => cases hf
        · rw [Bool.not_eq_true] at hr hf
          have hsame := sameNetwork_stretch (C := C) d.toLive a t hr hf
          rw [← hl] at hsame
          simpa [hr, hf] using ⟨hsame.myId, hsame.config, hsame.disk, hsame.doc⟩
    rw [he, Device.record_eq]
    obtain ⟨hid, hconfig, hdisk, hdoc⟩ := hnet
    exact ⟨hid, hconfig, hdisk, rfl, hdoc, rfl, rfl, rfl, rfl⟩

/-- The task is `refresh_roster`. -/
def Task.refreshing : Task → Bool
  | .refreshRead | .refreshFold _ | .refreshStore _ | .done => true
  | _ => false

/-- `refresh_roster` leaves the network alone, and goes on as itself. -/
theorem refreshing_runTask (d : Device) (i : Inputs) (r : Reading) {t : Task}
    (ht : t.refreshing = true) :
    t.resets = false ∧ t.forgets = false ∧ (d.runTask C i r t).2.2.1.refreshing = true := by
  have hplain : t.resets = false ∧ t.forgets = false := by
    cases t <;> first | exact ⟨rfl, rfl⟩ | cases ht
  refine ⟨hplain.1, hplain.2, ?_⟩
  rcases d.runTask_cases (C := C) i r t with ⟨-, -, he⟩ | ⟨-, l, a, t', spawned, -, hs, he⟩
  · rwa [he]
  · have hnext : (stretch C d.toLive a t).2.1.refreshing = true := by
      cases t with
      | refreshRead =>
        simp only [stretch, Live.readRefresh]
        split <;> rfl
      | refreshFold cfg =>
        simp only [stretch, single, Live.foldRefresh]
        split <;> rfl
      | refreshStore roster => rfl
      | done => rfl
      | _ => cases ht
    rw [he]
    rwa [hs] at hnext

/-! ## 3. The calls -/

namespace Job

/-- The first stretch of a call that goes online. -/
def wantsOnline : Job → Bool
  | .create _ _ | .join _ | .rotate | .online => true
  | _ => false

/-- The activation commits next. -/
def commits : Job → Bool
  | .committing _ _ _ _ => true
  | _ => false

/-- The state is reset next. -/
def resets : Job → Bool
  | .reset _ => true
  | _ => false

/-- The job has come to its end. -/
def ended : Job → Bool
  | .returned _ | .checked _ | .done => true
  | _ => false

/-- The job is a task of the engine. -/
def isTask : Job → Bool
  | .task _ _ => true
  | _ => false

/-- The job is, or stands in, a task of the engine. -/
def inTask : Job → Bool
  | .task _ _ | .refresh _ _ _ => true
  | _ => false

end Job

/-- **Who is dropped**: a request, or a dial. -/
theorem Job.drop_cases {j j' : Job} (h : j.drop = some j') :
    (j.requested = true ∧ j' = .done) ∨
      ∃ r t t', j = .task r t ∧ t.drop = some t' ∧ j' = .task r t' := by
  unfold Job.drop at h
  split at h
  · rename_i r t
    obtain ⟨t', ht', rfl⟩ := Option.map_eq_some_iff.mp h
    exact Or.inr ⟨r, t, t', rfl, ht', rfl⟩
  · cases h
  · obtain ⟨hreq, hdone⟩ := Option.ite_none_right_eq_some.mp h
    exact Or.inl ⟨hreq, (Option.some.inj hdone).symm⟩

/-- A call spawns nothing. -/
theorem runJob_call (d : Device) (i : Inputs) {j : Job} (hj : j.isTask = false) :
    runJob C d i j = ((runCall C d i j).1, (runCall C d i j).2, []) := by
  cases j with
  | task r t => cases hj
  | _ => rfl

/-- What is spawned is a task of the engine, and the tasks spawned it. -/
theorem spawned_run {d : Device} {i : Inputs} {j j' : Job} (hj' : j' ∈ (runJob C d i j).2.2) :
    ∃ r t r' t', j = .task r t ∧ j' = .task r' t' ∧ t' ∈ (d.runTask C i r t).2.2.2 := by
  cases hj : j.isTask with
  | false =>
    rw [runJob_call d i hj] at hj'
    cases hj'
  | true =>
    cases j with
    | task r t =>
      obtain ⟨t', ht', rfl⟩ := List.mem_map.mp hj'
      exact ⟨r, t, _, t', rfl, rfl, ht'⟩
    | _ => cases hj

/-- **The rule for a call alone.** -/
theorem call_alone {L : Device → Job → Prop} {w : World Device Job} {a : Act Job Inputs Arrival}
    (h : w.Alone L) (ha : a.solo) (hcall : ∀ j, L w.shared j → j.isTask = false)
    (hgo : ∀ i j, L w.shared j → L (runCall C w.shared i j).1 (runCall C w.shared i j).2)
    (hdrop : ∀ j j', j.drop = some j' → L w.shared j → L w.shared j')
    (henv : ∀ j e, a = .env e → L w.shared j → L (arrive w.shared e) j) :
    ((lifecycle C).step w a).Alone L := by
  refine Program.step_alone h ha (fun j i hj => ?_) hdrop henv
  rw [show (lifecycle C).stretch w.shared i j = runJob C w.shared i j from rfl,
    runJob_call w.shared i (hcall j hj)]
  exact ⟨rfl, hgo i j hj⟩

/-! ## 4. How a job goes on -/

namespace Device

variable (d : Device) (i : Inputs)

/-- A network that is started is saved and opened, or the write has failed. -/
theorem saveAndOpen_cases (cfg : StoredConfig) (originator : SigningKey) :
    (i.saving.error? cfg = none ∧ d.saveAndOpen i cfg originator =
      ({ d with cborTorn := false, disk := cfg.onDisk }, .opening cfg (.found originator))) ∨
    ∃ e, i.saving.error? cfg = some e ∧ d.saveAndOpen i cfg originator =
      ({ d with
          disk := (i.saving.leaves cfg d.disk d.cborTorn).1
          cborTorn := (i.saving.leaves cfg d.disk d.cborTorn).2 }, .returned (.error e)) := by
  unfold saveAndOpen
  rcases d.saveConfig_cases cfg i.saving with ⟨he, hs⟩ | ⟨e, he, hs⟩
  · exact Or.inl ⟨he, by rw [hs]⟩
  · exact Or.inr ⟨e, he, by rw [hs]⟩

/-- A joiner that has activated its network saves it and polls, or leaves it again. -/
theorem activated_join_cases (cfg : StoredConfig) :
    (i.saving.error? cfg = none ∧ d.activated C i cfg .join =
      ({ d with cborTorn := false, disk := cfg.onDisk }, .poll cfg 29)) ∨
    ∃ e, i.saving.error? cfg = some e ∧ d.activated C i cfg .join =
      Device.disconnect { d with
        disk := (i.saving.leaves cfg d.disk d.cborTorn).1
        cborTorn := (i.saving.leaves cfg d.disk d.cborTorn).2 } (.joinFailed e) := by
  unfold activated
  rcases d.saveConfig_cases cfg i.saving with ⟨he, hs⟩ | ⟨e, he, hs⟩
  · exact Or.inl ⟨he, by rw [hs]⟩
  · exact Or.inr ⟨e, he, by rw [hs]⟩

end Device

/-- **How a job goes on** behind one stretch. The ends that several calls come to, and the loop of
    the removals, may follow on any job here. -/
inductive GoesOn (d : Device) : Job → Job → Prop
  | returned (j : Job) (r : Except String (Option StoredConfig)) : GoesOn d j (.returned r)
  | checked (j : Job) (action : HealthAction) : GoesOn d j (.checked action)
  | joinFails (j : Job) (error : String) : GoesOn d j (.reset (.joinFailed error))
  | removes (j : Job) (entry : Entry) (r : Rotation) (others : List Id) :
      GoesOn d j (.publish entry (.removal r others))
  | sleeps (j : Job) (r : Rotation) : GoesOn d j (.sleeping r)
  | done : GoesOn d .done .done
  | task (r r' : Reading) (t t' : Task) : GoesOn d (.task r t) (.task r' t')
  | refresh (cfg : StoredConfig) (r r' : Reading) (t t' : Task) :
      GoesOn d (.refresh cfg r t) (.refresh cfg r' t')
  | creates (name : String) (subnet : Octets) (cfg : StoredConfig) (originator : SigningKey) :
      GoesOn d (.create name subnet) (.opening cfg (.found originator))
  | asks (ticket : JoinTicket) : GoesOn d (.join ticket) (.handshake ticket.config)
  | approved (cfg : StoredConfig) : GoesOn d (.handshake cfg) (.opening cfg .join)
  | opened (cfg : StoredConfig) (doc : Doc) (author : AuthorId) (p : Purpose) :
      GoesOn d (.opening cfg p) (.committing cfg doc author p)
  | founded (cfg : StoredConfig) (doc : Doc) (author : AuthorId) (originator : SigningKey)
      (entry : Entry) : GoesOn d (.committing cfg doc author (.found originator))
        (.publish entry (.genesis cfg originator))
  | joined (cfg : StoredConfig) (doc : Doc) (author : AuthorId) :
      GoesOn d (.committing cfg doc author .join) (.poll cfg 29)
  | writes (doc : Doc) (author : AuthorId) (entry : Entry) (p : Publication) :
      GoesOn d (.publish entry p) (.writing doc author entry p)
  | invites (doc : Doc) (author : AuthorId) (entry entry' : Entry) (cfg : StoredConfig)
      (originator : SigningKey) : GoesOn d (.writing doc author entry (.genesis cfg originator))
        (.publish entry' (.invite cfg))
  | refreshes (doc : Doc) (author : AuthorId) (entry : Entry) (cfg : StoredConfig) :
      GoesOn d (.writing doc author entry (.invite cfg)) (.refresh cfg {} .refreshRead)
  | folds (cfg : StoredConfig) (doc : Doc) (left : Nat) :
      GoesOn d (.poll cfg left) (.polled cfg doc left)
  | polls (cfg : StoredConfig) (left : Nat) : GoesOn d (.poll cfg (left + 1)) (.poll cfg left)
  | pollsAgain (cfg : StoredConfig) (doc : Doc) (left : Nat) :
      GoesOn d (.polled cfg doc (left + 1)) (.poll cfg left)
  | notAdded (cfg : StoredConfig) : GoesOn d (.poll cfg 0) (.reset .joinNotAdded)
  | notFolded (cfg : StoredConfig) (doc : Doc) : GoesOn d (.polled cfg doc 0) (.reset .joinNotAdded)
  | rotates (originator : SigningKey) : GoesOn d .rotate (.rotateRead originator)
  | rotatesAway (r : Rotation) : GoesOn d (.sleeping r) (.reset (.rotate r))
  | rotated (r : Rotation) (cfg : StoredConfig) (originator : SigningKey) :
      GoesOn d (.forget (.rotate r)) (.opening cfg (.found originator))
  | leaves : GoesOn d .leave (.reset .leave)
  | offline : GoesOn d .offline (.reset .offline)
  | online : GoesOn d .online .onlineRead
  | reopens (cfg : StoredConfig) : GoesOn d .onlineRead (.opening cfg .online)
  | imports (secret : SigningKey) (cfg : StoredConfig) :
      GoesOn d (.importKey secret) (.importSave cfg)
  | saves (cfg : StoredConfig) : GoesOn d (.importSave cfg) (.importCommit cfg)
  | escalates : GoesOn d .health .rebuild
  | strikes : GoesOn d .health .burst
  | waits : GoesOn d .rebuild .rebuild
  | rebuilds : GoesOn d .rebuild .rebuildRead
  | disconnects : GoesOn d .rebuildRead (.reset (.rebuild d.config))
  | spawns (cfg : Option StoredConfig) : GoesOn d (.reset (.rebuild cfg)) (.spawning cfg)
  | reactivates (cfg : StoredConfig) : GoesOn d (.spawning (some cfg)) (.opening cfg .rebuild)
  | forgets (b : Behind) : GoesOn d (.reset b) (.forget b)

section

variable {d d' : Device} {i : Inputs} {j : Job}

theorem goesOn_saveAndOpen (cfg : StoredConfig) (originator : SigningKey)
    (h : GoesOn d j (.opening cfg (.found originator))) :
    GoesOn d j (d'.saveAndOpen i cfg originator).2 := by
  rcases d'.saveAndOpen_cases i cfg originator with ⟨-, hs⟩ | ⟨e, -, hs⟩
  · exact hs ▸ h
  · exact hs ▸ .returned j (.error e)

theorem goesOn_removeNext (r : Rotation) (others : List Id) :
    GoesOn d j (Device.removeNext C i r others) := by
  cases others with
  | nil => exact .sleeps j r
  | cons id others => exact .removes j _ r others

end

/-- **Every stretch goes one of these ways.** -/
theorem goesOn_run (d : Device) (i : Inputs) (j : Job) : GoesOn d j (runJob C d i j).2.1 := by
  cases j with
  | task r t => exact .task r _ t _
  | create name subnet =>
    simp only [runJob, runCall]
    split
    · exact .returned _ _
    · exact goesOn_saveAndOpen _ _ (.creates name subnet _ _)
  | join ticket =>
    simp only [runJob, runCall]
    split
    · exact .returned _ _
    · exact .asks ticket
  | handshake cfg =>
    simp only [runJob, runCall]
    split
    · exact .approved cfg
    · exact .joinFails _ _
  | opening cfg p =>
    simp only [runJob, runCall]
    split
    · exact .opened cfg _ _ p
    · cases p with
      | join => exact .joinFails _ _
      | rebuild => exact .checked _ _
      | _ => exact .returned _ _
  | committing cfg doc author p =>
    cases p with
    | found originator => exact .founded cfg doc author originator _
    | join =>
      rcases (d.commit cfg doc author).activated_join_cases (C := C) i cfg with
        ⟨-, hs⟩ | ⟨e, -, hs⟩
      · simp only [runJob, runCall, hs]
        exact .joined cfg doc author
      · simp only [runJob, runCall, hs]
        exact .joinFails _ e
    | online => exact .returned _ _
    | rebuild => exact .checked _ _
  | publish entry p =>
    simp only [runJob, runCall]
    split
    · cases p with
      | removal r others => exact goesOn_removeNext r others
      | _ => exact .returned _ _
    · exact .writes _ _ entry p
  | writing doc author entry p =>
    simp only [runJob, runCall]
    split
    · cases p with
      | genesis cfg originator => exact .invites doc author entry _ cfg originator
      | invite cfg => exact .refreshes doc author entry cfg
      | removal r others => exact goesOn_removeNext r others
    · cases p with
      | removal r others => exact goesOn_removeNext r others
      | _ => exact .returned _ _
  | refresh cfg r t =>
    simp only [runJob, runCall, refreshed]
    split
    · exact .returned _ _
    · exact .refresh cfg r _ t _
  | poll cfg left =>
    simp only [runJob, runCall]
    split
    · exact .folds cfg _ left
    · cases left with
      | zero => exact .notAdded cfg
      | succ left => exact .polls cfg left
  | polled cfg doc left =>
    simp only [runJob, runCall]
    split
    · exact .returned _ _
    · cases left with
      | zero => exact .notFolded cfg doc
      | succ left => exact .pollsAgain cfg doc left
  | rotate =>
    simp only [runJob, runCall]
    split
    · exact .returned _ _
    · exact .rotates _
  | rotateRead originator =>
    simp only [runJob, runCall]
    split
    · exact .returned _ _
    · exact goesOn_removeNext _ _
  | sleeping r => exact .rotatesAway r
  | leave =>
    simp only [runJob, runCall]
    split
    · exact .returned _ _
    · exact .leaves
  | offline => exact .offline
  | online =>
    simp only [runJob, runCall]
    split
    · exact .returned _ _
    · exact .online
  | onlineRead =>
    simp only [runJob, runCall]
    split
    · exact .returned _ _
    · exact .reopens _
  | importKey secret =>
    simp only [runJob, runCall]
    split
    · exact .returned _ _
    · split
      · exact .returned _ _
      · exact .imports secret _
  | importSave cfg =>
    simp only [runJob, runCall]
    split
    · exact .saves cfg
    · exact .returned _ _
  | importCommit cfg => exact .returned _ _
  | health =>
    simp only [runJob, runCall]
    split
    · exact .checked _ _
    · split
      · exact .escalates
      · exact .strikes
  | burst => exact .checked _ _
  | rebuild =>
    simp only [runJob, runCall]
    split
    · exact .waits
    · exact .rebuilds
  | rebuildRead => exact .disconnects
  | spawning cfg =>
    simp only [runJob, runCall]
    split
    · exact .checked _ _
    · split
      · exact .checked _ _
      · cases cfg with
        | none => exact .checked _ _
        | some cfg => exact .reactivates cfg
  | reset b =>
    cases b with
    | offline => exact .returned _ _
    | rebuild cfg => exact .spawns cfg
    | _ => exact .forgets _
  | forget b =>
    cases b with
    | joinNotAdded => exact .joinFails _ _
    | rotate r => exact goesOn_saveAndOpen _ _ (.rotated r _ _)
    | _ => exact .returned _ _
  | returned r => exact .returned _ r
  | checked action => exact .checked _ action
  | done => exact .done

/-! ## 5. The calls and the history -/

/-- The device has been a member since it went online, or the cached roster has it. -/
def Live.shown (l : Live) : Bool := l.wasMember || l.roster.isMember l.myId

theorem Live.shown_iff {l : Live} :
    l.shown = true ↔ l.wasMember = true ∨ l.roster.isMember l.myId = true := Bool.or_eq_true_iff

/-- A reset leaves nothing cached. -/
theorem Live.shown_resetState {l : Live} (h : l.resetState.shown = true) : l.shown = true := by
  have hw : l.resetState.wasMember = true := by
    rw [shown, show l.resetState.roster = Roster.default from rfl] at h
    simpa [Roster.isMember, Roster.default] using h
  exact shown_iff.mpr (Or.inl hw)

/-- The history is as it was, but that a document may have changed, and that the device may have
    gone offline. -/
structure SameHistory (d d' : Device) : Prop where
  wantsOffline : d'.wantsOffline = d.wantsOffline
  activations : d'.activations = d.activations
  edits : d.edits ≤ d'.edits
  seen : d'.seen = d.seen
  rosterAt : d'.rosterAt = d.rosterAt
  myId : d'.myId = d.myId
  shown : d'.shown = true → d.shown = true

namespace Device

variable (d : Device) (i : Inputs)

variable {d} in
theorem sameHistory_rfl : SameHistory d d := ⟨rfl, rfl, le_rfl, rfl, rfl, rfl, id⟩

variable {d} in
/-- Who goes offline gives up the latch. -/
theorem sameHistory_disconnect {d' : Device} (h : SameHistory d d') (b : Behind) :
    SameHistory d (d'.disconnect b).1 :=
  ⟨h.wantsOffline, h.activations, h.edits, h.seen, h.rosterAt, h.myId, fun hcached =>
    h.shown (Live.shown_iff.mpr (Or.inr hcached))⟩

theorem sameHistory_saveAndOpen (cfg : StoredConfig) (originator : SigningKey) :
    SameHistory d (d.saveAndOpen i cfg originator).1 := by
  rcases d.saveAndOpen_cases i cfg originator with ⟨-, hs⟩ | ⟨e, -, hs⟩
  · exact hs ▸ ⟨rfl, rfl, le_rfl, rfl, rfl, rfl, id⟩
  · exact hs ▸ ⟨rfl, rfl, le_rfl, rfl, rfl, rfl, id⟩

theorem sameHistory_activateFails (e : String) (p : Purpose) :
    SameHistory d (d.activateFails e p).1 := by
  cases p with
  | join => exact sameHistory_disconnect sameHistory_rfl _
  | rebuild => exact ⟨rfl, rfl, le_rfl, rfl, rfl, rfl, id⟩
  | _ => exact sameHistory_rfl

theorem sameHistory_activated (cfg : StoredConfig) (p : Purpose) :
    SameHistory d (d.activated C i cfg p).1 := by
  cases p with
  | join =>
    rcases d.activated_join_cases (C := C) i cfg with ⟨-, hs⟩ | ⟨e, -, hs⟩
    · exact hs ▸ ⟨rfl, rfl, le_rfl, rfl, rfl, rfl, id⟩
    · rw [hs]
      refine sameHistory_disconnect (d := d) ?_ _
      exact ⟨rfl, rfl, le_rfl, rfl, rfl, rfl, id⟩
  | found originator => exact sameHistory_rfl
  | online => exact sameHistory_rfl
  | rebuild => exact ⟨rfl, rfl, le_rfl, rfl, rfl, rfl, id⟩

theorem sameHistory_pollNext (cfg : StoredConfig) (left : Nat) :
    SameHistory d (d.pollNext cfg left).1 := by
  cases left with
  | zero => exact sameHistory_disconnect sameHistory_rfl _
  | succ left => exact sameHistory_rfl

theorem sameHistory_forgetEnds (b : Behind) : SameHistory d (d.forgetEnds i b).1 := by
  cases b with
  | rotate r => exact d.sameHistory_saveAndOpen i _ r.originator
  | joinNotAdded => exact sameHistory_disconnect sameHistory_rfl _
  | _ => exact sameHistory_rfl

end Device

/-- What a stretch of a call leaves of the history. -/
structure CallEffect (d : Device) (j : Job) (d' : Device) : Prop where
  wantsOffline :
    d'.wantsOffline = (!j.wantsOnline && (d.wantsOffline || decide (j = .reset .offline)))
  activations : d'.activations = d.activations + if j.commits then 1 else 0
  edits : d.edits ≤ d'.edits
  seen : d'.seen = d.seen
  rosterAt : d'.rosterAt = if j.resets then d.seen else d.rosterAt
  myId : d'.myId = d.myId
  shown : d'.shown = true → d.shown = true

/-- **The effect of a call on the history.** -/
theorem callEffect (d : Device) (i : Inputs) (j : Job) (hj : j.inTask = false) :
    CallEffect d j (runJob C d i j).1 := by
  -- most stretches leave the history alone; the first one of some calls clears the wish
  have hkeep : j.wantsOnline = false → j.commits = false → j.resets = false →
      SameHistory d (runJob C d i j).1 → CallEffect d j (runJob C d i j).1 := by
    intro hwants hcommits hresets h
    have hj : j ≠ .reset .offline := fun h => by rw [h] at hresets; cases hresets
    exact ⟨by simp [hwants, hj, h.wantsOffline], by simp [hcommits, h.activations], h.edits,
      h.seen, by simp [hresets, h.rosterAt], h.myId, h.shown⟩
  have hcall : j.wantsOnline = true →
      SameHistory { d with wantsOffline := false } (runJob C d i j).1 →
      CallEffect d j (runJob C d i j).1 := by
    intro hwants h
    have hcommits : j.commits = false := by cases j <;> first | rfl | cases hwants
    have hresets : j.resets = false := by cases j <;> first | rfl | cases hwants
    exact ⟨by simp [hwants, h.wantsOffline], by simp [hcommits, h.activations], h.edits,
      h.seen, by simp [hresets, h.rosterAt], h.myId, h.shown⟩
  cases j with
  | task r t => cases hj
  | refresh cfg r t => cases hj
  | create name subnet =>
    refine hcall rfl ?_
    simp only [runJob, runCall]
    split
    · exact Device.sameHistory_rfl
    · exact Device.sameHistory_saveAndOpen _ i _ _
  | join ticket =>
    refine hcall rfl ?_
    simp only [runJob, runCall]
    split <;> exact Device.sameHistory_rfl
  | rotate =>
    refine hcall rfl ?_
    simp only [runJob, runCall]
    split <;> exact Device.sameHistory_rfl
  | online => exact hcall rfl Device.sameHistory_rfl
  | committing cfg doc author p =>
    have h := Device.sameHistory_activated (C := C) (d.commit cfg doc author) i cfg p
    exact ⟨by simp [Job.wantsOnline]; exact h.wantsOffline, h.activations, h.edits, h.seen,
      h.rosterAt, h.myId, h.shown⟩
  | reset b =>
    have hshown := Live.shown_resetState (l := d.toLive)
    cases b with
    | offline => exact ⟨by simp [Job.wantsOnline]; rfl, rfl, le_rfl, rfl, rfl, rfl, hshown⟩
    | _ => exact ⟨by simp [Job.wantsOnline]; rfl, rfl, le_rfl, rfl, rfl, rfl, hshown⟩
  | handshake cfg =>
    refine hkeep rfl rfl rfl ?_
    simp only [runJob, runCall]
    split
    · exact Device.sameHistory_rfl
    · exact Device.sameHistory_disconnect Device.sameHistory_rfl _
  | opening cfg p =>
    refine hkeep rfl rfl rfl ?_
    simp only [runJob, runCall]
    split
    · exact ⟨rfl, rfl, le_rfl, rfl, rfl, rfl, id⟩
    · exact d.sameHistory_activateFails _ p
  | publish entry p =>
    refine hkeep rfl rfl rfl ?_
    simp only [runJob, runCall]
    split <;> exact Device.sameHistory_rfl
  | writing doc author entry p =>
    refine hkeep rfl rfl rfl ?_
    simp only [runJob, runCall]
    split
    · exact ⟨rfl, rfl, Nat.le_succ _, rfl, rfl, rfl, id⟩
    · exact Device.sameHistory_rfl
  | poll cfg left =>
    refine hkeep rfl rfl rfl ?_
    simp only [runJob, runCall]
    split
    · exact Device.sameHistory_rfl
    · exact d.sameHistory_pollNext cfg left
  | polled cfg doc left =>
    refine hkeep rfl rfl rfl ?_
    simp only [runJob, runCall]
    split
    · exact Device.sameHistory_rfl
    · exact d.sameHistory_pollNext cfg left
  | rotateRead originator =>
    refine hkeep rfl rfl rfl ?_
    simp only [runJob, runCall]
    split <;> exact Device.sameHistory_rfl
  | leave =>
    refine hkeep rfl rfl rfl ?_
    simp only [runJob, runCall]
    split
    · exact Device.sameHistory_rfl
    · exact Device.sameHistory_disconnect Device.sameHistory_rfl _
  | onlineRead =>
    refine hkeep rfl rfl rfl ?_
    simp only [runJob, runCall]
    split <;> exact Device.sameHistory_rfl
  | importKey secret =>
    refine hkeep rfl rfl rfl ?_
    simp only [runJob, runCall]
    split
    · exact Device.sameHistory_rfl
    · split <;> exact Device.sameHistory_rfl
  | importSave cfg =>
    refine hkeep rfl rfl rfl ?_
    simp only [runJob, runCall]
    rcases d.saveConfig_cases cfg i.saving with ⟨-, hs⟩ | ⟨e, -, hs⟩
    · rw [hs]
      exact ⟨rfl, rfl, le_rfl, rfl, rfl, rfl, id⟩
    · rw [hs]
      exact ⟨rfl, rfl, le_rfl, rfl, rfl, rfl, id⟩
  | health =>
    refine hkeep rfl rfl rfl ?_
    simp only [runJob, runCall]
    split
    · exact ⟨rfl, rfl, le_rfl, rfl, rfl, rfl, id⟩
    · split <;> exact ⟨rfl, rfl, le_rfl, rfl, rfl, rfl, id⟩
  | burst =>
    refine hkeep rfl rfl rfl ?_
    simp only [runJob, runCall]
    rw [d.recoveryBurst_eq]
    exact ⟨rfl, rfl, le_rfl, rfl, rfl, rfl, id⟩
  | rebuild =>
    refine hkeep rfl rfl rfl ?_
    simp only [runJob, runCall]
    split <;> exact ⟨rfl, rfl, le_rfl, rfl, rfl, rfl, id⟩
  | spawning cfg =>
    refine hkeep rfl rfl rfl ?_
    simp only [runJob, runCall]
    split
    · exact ⟨rfl, rfl, le_rfl, rfl, rfl, rfl, id⟩
    · split
      · exact ⟨rfl, rfl, le_rfl, rfl, rfl, rfl, id⟩
      · cases cfg <;> exact ⟨rfl, rfl, le_rfl, rfl, rfl, rfl, id⟩
  | forget b =>
    have h := d.forget.sameHistory_forgetEnds i b
    exact hkeep rfl rfl rfl
      ⟨h.wantsOffline, h.activations, h.edits, h.seen, h.rosterAt, h.myId, h.shown⟩
  | sleeping r =>
    exact hkeep rfl rfl rfl (Device.sameHistory_disconnect Device.sameHistory_rfl (.rotate r))
  | offline =>
    exact hkeep rfl rfl rfl (Device.sameHistory_disconnect Device.sameHistory_rfl .offline)
  | rebuildRead =>
    refine hkeep rfl rfl rfl ?_
    exact Device.sameHistory_disconnect Device.sameHistory_rfl (.rebuild d.config)
  | _ => exact hkeep rfl rfl rfl ⟨rfl, rfl, le_rfl, rfl, rfl, rfl, id⟩

/-! ## 6. What happens outside -/

/-- What the outside leaves alone. -/
structure ArriveEffect (d d' : Device) : Prop where
  config : d'.config = d.config
  disk : d'.disk = d.disk
  torn : d'.cborTorn = d.cborTorn
  doc : d'.doc = d.doc
  conns : d'.mesh.conns = d.mesh.conns
  myId : d'.myId = d.myId
  wantsOffline : d'.wantsOffline = d.wantsOffline
  activations : d'.activations = d.activations
  edits : d.edits ≤ d'.edits
  seen : d'.seen = d.seen
  rosterAt : d'.rosterAt = d.rosterAt
  shown : d'.shown = d.shown

/-- **The network of the device is not touched from outside.** -/
theorem arriveEffect (d : Device) (e : Arrival) : ArriveEffect d (arrive d e) := by
  cases e with
  | networkChanged now =>
    rw [arrive, d.recoveryBurst_eq]
    exact ⟨rfl, rfl, rfl, rfl, rfl, rfl, rfl, rfl, le_rfl, rfl, rfl, rfl⟩
  | synced doc entries => exact ⟨rfl, rfl, rfl, rfl, rfl, rfl, rfl, rfl, Nat.le_succ _, rfl, rfl,
    rfl⟩
  | _ => exact ⟨rfl, rfl, rfl, rfl, rfl, rfl, rfl, rfl, le_rfl, rfl, rfl, rfl⟩

/-! ## 7. A device to try -/

namespace Sample

/-- Device 5 has no network. -/
def single : Device := { deviceKey := key 5, myId := key 5 }

/-- A creation draws the key `seed` for its secret, and 1 for the originator. -/
def fresh (seed : UInt8) : Inputs :=
  { freshSecret := ⟨key seed⟩, freshKey := key 1, now := 1 }

/-- A creation at place `k`, from its start to its end. -/
def creates (k : Nat) (seed : UInt8) : List (Act Job Inputs Arrival) :=
  .start (.create "home" (10, 99, 0, 0)) :: List.replicate 11 (.go k (fresh seed))

end Sample

end Nullgate
