/-
  File:      Nullgate/Lifecycle/OneNetwork.lean
  Subject:   CREATING AND JOINING AT ONCE: two calls that both saw a device without a network.

  `create_network` and `join_network` look for a config first and write theirs much later, and a
  join that fails tears down whatever network there is by then.

  * `Job.network?`: the network a call has put up so far;
  * `OneNetwork`: one call at most has returned `Ok`, and what a call has established is in
    memory and on disk;
  * `Excludes`: the writes of a call happen while no other has put up a network;
  * `one_network`: in a run of such steps the device has one network, in every state.
-/
import Nullgate.Lifecycle.Effects

namespace Nullgate

open Nullgate.Lib

/-! ## 1. The property and the condition -/

/-- The network that the entry is published into, if it is a new one. -/
def Publication.network? : Publication → Option StoredConfig
  | .genesis cfg _ | .invite cfg => some cfg
  | .removal _ _ => none

namespace Job

/-- **The network a call has put up**: a creation once it is saved, a join once it is activated,
    and neither any more once it has failed. -/
def network? : Job → Option StoredConfig
  | .opening cfg (.found _) | .committing cfg _ _ (.found _) => some cfg
  | .publish _ p | .writing _ _ _ p => p.network?
  | .refresh cfg _ _ | .poll cfg _ | .polled cfg _ _ => some cfg
  | .returned (.ok cfg) => cfg
  | _ => none

/-- The activation is not committed yet. -/
def activating : Job → Bool
  | .opening _ _ | .committing _ _ _ _ => true
  | _ => false

def succeeded : Job → Bool
  | .returned (.ok _) => true
  | _ => false

/-- The call writes a config over whatever there is, or forgets it: a creation that finds no
    config in memory, the commit of a join, the teardown of one. -/
def takesOver (config : Option StoredConfig) : Job → Bool
  | .create _ _ => config.isNone
  | .committing _ _ _ .join | .forget _ => true
  | _ => false

/-- A call of `create_network` or `join_network`, wherever it stands. -/
def founding : Job → Bool
  | .create _ _ | .join _ | .handshake _ | .poll _ _ | .polled _ _ _ => true
  | .opening _ p | .committing _ _ _ p =>
    match p with
    | .found _ | .join => true
    | .online | .rebuild => false
  | .publish _ p | .writing _ _ _ p => p.network?.isSome
  | .refresh _ _ t => t.refreshing
  | .reset b | .forget b =>
    match b with
    | .joinFailed _ | .joinNotAdded => true
    | _ => false
  | .returned r =>
    match r with
    | .error _ => true
    | .ok cfg => cfg.isSome
  | .done => true
  | _ => false

end Job

/-- The network is on disk, and in memory unless it is still being activated. -/
structure Established (d : Device) (j : Job) (cfg : StoredConfig) : Prop where
  disk : d.disk = cfg.onDisk
  torn : d.cborTorn = false
  config : j.activating = false → d.config = some cfg

/-- **One network.** One call at most has returned `Ok`, and what a call has put up is there: its
    config in memory and on disk, and both secrets. -/
structure OneNetwork (w : World Device Job) : Prop where
  once : w.tasks.countP Job.succeeded ≤ 1
  intact : ∀ j ∈ w.tasks, ∀ cfg ∈ j.network?, Established w.shared j cfg

/-- Only calls of `create_network` and `join_network` begin. -/
def Founds : Act Job Inputs Arrival → Prop
  | .start j => j.founding = true
  | _ => True

/-- **No call takes over from another**: it writes or forgets a config only while no call has put
    up a network. -/
def Excludes (w : World Device Job) : Act Job Inputs Arrival → Prop
  | .go k _ => ∀ j ∈ w.tasks[k]?, j.takesOver w.shared.config = true →
      ∀ j' ∈ w.tasks, j'.network? = none
  | _ => True

instance decidableFounds : DecidablePred Founds
  | .start j => inferInstanceAs (Decidable (j.founding = true))
  | .go _ _ | .drop _ | .env _ => isTrue trivial

instance decidableExcludes : ∀ (w : World Device Job) (a : Act Job Inputs Arrival),
    Decidable (Excludes w a)
  | w, .go k _ => inferInstanceAs (Decidable (∀ j ∈ w.tasks[k]?, _ = _ → ∀ j' ∈ _, _ = _))
  | _, .start _ | _, .drop _ | _, .env _ => isTrue trivial

variable {C : Crates} {d d' : Device} {j j' : Job} {w : World Device Job}
  {a : Act Job Inputs Arrival}

/-! ## 2. One stretch -/

/-- Memory and disk have the same config. -/
structure SameConfig (d d' : Device) : Prop where
  config : d'.config = d.config
  disk : d'.disk = d.disk
  torn : d'.cborTorn = d.cborTorn

theorem Established.congr {cfg : StoredConfig} (h : Established d j cfg) (hs : SameConfig d d') :
    Established d' j cfg where
  disk := hs.disk.trans h.disk
  torn := hs.torn.trans h.torn
  config hj := hs.config.trans (h.config hj)

/-- A call of the two, and the network it has put up is there. -/
structure FoundsAt (d : Device) (j : Job) : Prop where
  founding : j.founding = true
  intact : ∀ cfg ∈ j.network?, Established d j cfg

/-- **What a stretch of such a call does**: it goes on; it puts up a network where it takes over,
    and writes where it takes over or has put one up. -/
structure FoundsEffect (d : Device) (j : Job) (d' : Device) (j' : Job) : Prop where
  next : FoundsAt d' j'
  kept : j'.network?.isSome = true → j.network?.isSome = true ∨ j.takesOver d.config = true
  others : SameConfig d d' ∨ j.network?.isSome = true ∨ j.takesOver d.config = true

/-- The call goes on with no network, and nothing is written. -/
theorem foundsEffect_pass (hs : SameConfig d d') (hf : j'.founding = true)
    (hnone : j'.network? = none) : FoundsEffect d j d' j' where
  next := ⟨hf, fun cfg h => by
    rw [hnone] at h
    cases h⟩
  kept h := by
    rw [hnone] at h
    cases h
  others := Or.inl hs

/-- The call goes on with the network it has put up. -/
theorem foundsEffect_keep {cfg : StoredConfig} (hs : SameConfig d d') (hf : j'.founding = true)
    (hj : j.network? = some cfg) (hj' : j'.network? = some cfg) (hest : Established d j cfg)
    (hactivating : j.activating = false ∨ j'.activating = true) : FoundsEffect d j d' j' where
  next := by
    refine ⟨hf, fun cfg' h => ?_⟩
    obtain rfl := Option.some.inj (hj'.symm.trans h)
    refine ⟨hs.disk.trans hest.disk, hs.torn.trans hest.torn, fun hno => ?_⟩
    refine hs.config.trans (hest.config (hactivating.resolve_right fun hyes => ?_))
    rw [hno] at hyes
    cases hyes
  kept _ := Or.inl (by rw [hj]; rfl)
  others := Or.inl hs

/-- The call has taken over, and has put up no network. -/
theorem foundsEffect_giveUp (htakes : j.takesOver d.config = true) (hf : j'.founding = true)
    (hnone : j'.network? = none) : FoundsEffect d j d' j' where
  next := ⟨hf, fun cfg h => by
    rw [hnone] at h
    cases h⟩
  kept _ := Or.inr htakes
  others := Or.inr (Or.inr htakes)

/-- The call has taken over, and has put up a network. -/
theorem foundsEffect_takeOver (htakes : j.takesOver d.config = true) (hf : j'.founding = true)
    (hest : ∀ cfg ∈ j'.network?, Established d' j' cfg) : FoundsEffect d j d' j' where
  next := ⟨hf, hest⟩
  kept _ := Or.inr htakes
  others := Or.inr (Or.inr htakes)

/-- What is published for a new network is published for the same one. -/
theorem foundsEffect_publishEnds (i : Inputs) (result : Except String Unit) {p : Publication}
    (hs : SameConfig d d') (hj : j.network? = p.network?) (hactivating : j.activating = false)
    (hp : p.network?.isSome = true) (hest : ∀ cfg ∈ j.network?, Established d j cfg) :
    FoundsEffect d j d' (Device.publishEnds C i result p) := by
  have hkeep : ∀ {j' : Job} {cfg : StoredConfig}, j'.founding = true → p.network? = some cfg →
      j'.network? = some cfg → FoundsEffect d j d' j' := fun hf hcfg hj' =>
    foundsEffect_keep hs hf (hj.trans hcfg) hj' (hest _ (hj.trans hcfg)) (Or.inl hactivating)
  cases p with
  | removal r others => cases hp
  | genesis cfg originator =>
    cases result with
    | error e => exact foundsEffect_pass hs rfl rfl
    | ok u => exact hkeep rfl rfl rfl
  | invite cfg =>
    cases result with
    | error e => exact foundsEffect_pass hs rfl rfl
    | ok u => exact hkeep rfl rfl rfl

/-- A joiner that polls keeps its network, or is on the way to give it up. -/
theorem foundsEffect_pollNext {cfg : StoredConfig} (left : Nat) (hj : j.network? = some cfg)
    (hest : Established d j cfg) (hactivating : j.activating = false) :
    FoundsEffect d j (d.pollNext cfg left).1 (d.pollNext cfg left).2 := by
  cases left with
  | zero => exact foundsEffect_pass ⟨rfl, rfl, rfl⟩ rfl rfl
  | succ left =>
    exact foundsEffect_keep ⟨rfl, rfl, rfl⟩ rfl hj rfl hest (Or.inl hactivating)

/-- **A stretch of a creation or a join.** -/
theorem foundsEffect (i : Inputs) (hat : FoundsAt d j) :
    FoundsEffect d j (runCall C d i j).1 (runCall C d i j).2 := by
  have hfounding := hat.founding
  have hintact := hat.intact
  cases j with
  | create name subnet =>
    simp only [runCall]
    split
    · exact foundsEffect_pass ⟨rfl, rfl, rfl⟩ rfl rfl
    · rename_i hnone
      have htakes : (Job.create name subnet).takesOver d.config = true := by
        simpa [Job.takesOver] using hnone
      rcases Device.saveAndOpen_cases { d with wantsOffline := false } i ⟨name, subnet,
        i.freshSecret, C.verifyingKey i.freshKey, some i.freshKey⟩ i.freshKey with
        ⟨-, hs⟩ | ⟨e, -, hs⟩
      · rw [hs]
        refine foundsEffect_takeOver htakes rfl fun cfg hcfg => ?_
        obtain rfl := Option.some.inj hcfg
        exact ⟨rfl, rfl, fun h => by cases h⟩
      · rw [hs]
        exact foundsEffect_giveUp htakes rfl rfl
  | join ticket =>
    simp only [runCall]
    split
    · exact foundsEffect_pass ⟨rfl, rfl, rfl⟩ rfl rfl
    · exact foundsEffect_pass ⟨rfl, rfl, rfl⟩ rfl rfl
  | handshake cfg =>
    simp only [runCall]
    split
    · exact foundsEffect_pass ⟨rfl, rfl, rfl⟩ rfl rfl
    · exact foundsEffect_pass ⟨rfl, rfl, rfl⟩ rfl rfl
  | opening cfg p =>
    simp only [runCall]
    split
    · cases p with
      | found originator =>
        exact foundsEffect_keep ⟨rfl, rfl, rfl⟩ rfl rfl rfl (hintact cfg rfl) (Or.inr rfl)
      | join => exact foundsEffect_pass ⟨rfl, rfl, rfl⟩ rfl rfl
      | _ => cases hfounding
    · cases p with
      | found originator => exact foundsEffect_pass ⟨rfl, rfl, rfl⟩ rfl rfl
      | join => exact foundsEffect_pass ⟨rfl, rfl, rfl⟩ rfl rfl
      | _ => cases hfounding
  | committing cfg doc author p =>
    cases p with
    | found originator =>
      have hest := hintact cfg rfl
      refine ⟨⟨rfl, fun cfg' hcfg => ?_⟩, fun _ => Or.inl rfl, Or.inr (Or.inl rfl)⟩
      obtain rfl := Option.some.inj hcfg
      exact ⟨hest.disk, hest.torn, fun _ => rfl⟩
    | join =>
      rcases (d.commit cfg doc author).activated_join_cases (C := C) i cfg with
        ⟨-, hs⟩ | ⟨e, -, hs⟩
      · simp only [runCall, hs]
        refine foundsEffect_takeOver rfl rfl fun cfg' hcfg => ?_
        obtain rfl := Option.some.inj hcfg
        exact ⟨rfl, rfl, fun _ => rfl⟩
      · simp only [runCall, hs]
        exact foundsEffect_giveUp rfl rfl rfl
    | _ => cases hfounding
  | publish entry p =>
    simp only [runCall]
    split
    · rename_i e _
      exact foundsEffect_publishEnds i (.error e) ⟨rfl, rfl, rfl⟩ rfl rfl hfounding hintact
    · obtain ⟨cfg, hcfg⟩ := Option.isSome_iff_exists.mp hfounding
      exact foundsEffect_keep ⟨rfl, rfl, rfl⟩ hfounding hcfg hcfg (hintact cfg hcfg)
        (Or.inl rfl)
  | writing doc author entry p =>
    simp only [runCall]
    split
    · exact foundsEffect_publishEnds i (.ok ()) ⟨rfl, rfl, rfl⟩ rfl rfl hfounding hintact
    · rename_i e _
      exact foundsEffect_publishEnds i (.error e) ⟨rfl, rfl, rfl⟩ rfl rfl hfounding hintact
  | refresh cfg r t =>
    have ht : t.refreshing = true := hfounding
    obtain ⟨-, hforgets, hnext⟩ := refreshing_runTask (C := C) d i r ht
    have he := taskEffect (C := C) d i r t
    have hsame : SameConfig d (d.runTask C i r t).1 :=
      ⟨by rw [he.config, hforgets]; rfl, by rw [he.disk, hforgets]; rfl,
        by rw [he.torn, hforgets]; rfl⟩
    simp only [runCall, refreshed]
    split
    · exact foundsEffect_keep hsame rfl rfl rfl (hintact cfg rfl) (Or.inl rfl)
    · exact foundsEffect_keep hsame hnext rfl rfl (hintact cfg rfl) (Or.inl rfl)
  | poll cfg left =>
    simp only [runCall]
    split
    · exact foundsEffect_keep ⟨rfl, rfl, rfl⟩ rfl rfl rfl (hintact cfg rfl) (Or.inl rfl)
    · exact foundsEffect_pollNext left rfl (hintact cfg rfl) rfl
  | polled cfg doc left =>
    simp only [runCall]
    split
    · exact foundsEffect_keep ⟨rfl, rfl, rfl⟩ rfl rfl rfl (hintact cfg rfl) (Or.inl rfl)
    · exact foundsEffect_pollNext left rfl (hintact cfg rfl) rfl
  | reset b =>
    cases b with
    | joinFailed e => exact foundsEffect_pass ⟨rfl, rfl, rfl⟩ rfl rfl
    | joinNotAdded => exact foundsEffect_pass ⟨rfl, rfl, rfl⟩ rfl rfl
    | _ => cases hfounding
  | forget b =>
    cases b with
    | joinFailed e => exact foundsEffect_giveUp rfl rfl rfl
    | joinNotAdded => exact foundsEffect_giveUp rfl rfl rfl
    | _ => cases hfounding
  | returned r =>
    cases r with
    | error e => exact foundsEffect_pass ⟨rfl, rfl, rfl⟩ rfl rfl
    | ok network =>
      obtain ⟨cfg, rfl⟩ := Option.isSome_iff_exists.mp hfounding
      exact foundsEffect_keep ⟨rfl, rfl, rfl⟩ rfl rfl rfl (hintact cfg rfl) (Or.inl rfl)
  | done => exact foundsEffect_pass ⟨rfl, rfl, rfl⟩ rfl rfl
  | _ => cases hfounding

/-! ## 3. Every run -/

/-- The call has put up a network. -/
def Job.holds (j : Job) : Bool := j.network?.isSome

/-- **One call at most has put up a network**, and it is there. -/
structure Exclusive (w : World Device Job) : Prop where
  once : w.tasks.countP Job.holds ≤ 1
  inv : w.Inv (fun _ => True) FoundsAt

theorem foundsAt_none (hf : j.founding = true) (hnone : j.network? = none) : FoundsAt d j :=
  ⟨hf, fun cfg h => by
    rw [hnone] at h
    cases h⟩

/-- A call that begins has put up nothing. -/
theorem network?_of_starts (h : j.starts = true) : j.network? = none := by
  cases j <;> first | rfl | cases h

/-- The calls of the run are none of the engine's tasks. -/
theorem isTask_of_founding (h : j.founding = true) : j.isTask = false := by
  cases j <;> first | rfl | cases h

theorem exclusive_step (h : Exclusive w) (hs : Founds a) (ha : Excludes w a) :
    Exclusive ((lifecycle C).step w a) := by
  -- where the stretch writes, the other calls have put up nothing
  have hothers : ∀ {k : Nat} {i : Inputs}, a = .go k i → ∀ j ∈ w.tasks[k]?,
      j.network?.isSome = true ∨ j.takesOver w.shared.config = true →
      ∀ j' ∈ w.tasks.eraseIdx k, j'.network? = none := by
    intro k i hact j hk hwhy j' hj'
    rcases hwhy with hholds | htakes
    · simpa [Job.holds] using eq_false_of_countP (p := Job.holds) hk hholds h.once hj'
    · subst hact
      exact ha j hk htakes j' (List.mem_of_mem_eraseIdx hj')
  refine ⟨?_, Program.step_inv_others h.inv (fun k i j hact hk => ?_) (fun j hj hstarts => ?_)
    (fun j j' hd hj => ?_) fun e _ => ⟨trivial, fun j hj => ?_⟩⟩
  · rcases (lifecycle C).step_cases w a with ⟨-, -, he⟩ | ⟨k, i, j, rfl, hk, he⟩ |
      ⟨j, rfl, hstarts, he⟩ | ⟨k, j, j', rfl, hk, hd, he⟩ | ⟨e, rfl, he⟩
    · rw [he]
      exact h.once
    · have hat := h.inv.tasks j (List.mem_of_getElem? hk)
      have heff := foundsEffect (C := C) i hat
      have hcall : (lifecycle C).stretch w.shared i j = _ :=
        runJob_call (C := C) w.shared i (isTask_of_founding hat.founding)
      have hcount := countP_stretch Job.holds (runCall C w.shared i j).2 [] hk
      have honce := h.once
      rw [he, hcall]
      show (w.tasks.set k (runCall C w.shared i j).2 ++ []).countP Job.holds ≤ 1
      rw [List.countP_nil] at hcount
      by_cases hnext : (runCall C w.shared i j).2.holds = true
      · rcases heff.kept hnext with hholds | htakes
        · have hheld : j.holds = true := hholds
          rw [if_pos hnext, if_pos hheld] at hcount
          omega
        · -- nobody had one
          have hnone : w.tasks.countP Job.holds = 0 := List.countP_eq_zero.mpr fun j' hj' => by
            simp [Job.holds, ha j hk htakes j' hj']
          rw [if_pos hnext, hnone] at hcount
          omega
      · rw [if_neg hnext] at hcount
        omega
    · rw [he, List.countP_append]
      have hnone : [j].countP Job.holds = 0 := by
        simp [Job.holds, network?_of_starts hstarts]
      have honce := h.once
      show w.tasks.countP Job.holds + [j].countP Job.holds ≤ 1
      omega
    · have hcount := countP_stretch Job.holds j' [] hk
      have hnone : j'.holds = false := by
        rcases Job.drop_cases hd with ⟨-, rfl⟩ | ⟨r, t, t', rfl, -, rfl⟩ <;> rfl
      have honce := h.once
      rw [List.append_nil, List.countP_nil, hnone] at hcount
      rw [he]
      show (w.tasks.set k j').countP Job.holds ≤ 1
      simp only [Bool.false_eq_true, if_false] at hcount
      omega
    · rw [he]
      exact h.once
  · have hat := h.inv.tasks j (List.mem_of_getElem? hk)
    have heff := foundsEffect (C := C) i hat
    have hcall := runJob_call (C := C) w.shared i (isTask_of_founding hat.founding)
    show _ ∧ FoundsAt (runJob C w.shared i j).1 (runJob C w.shared i j).2.1 ∧
      (∀ j' ∈ (runJob C w.shared i j).2.2, FoundsAt (runJob C w.shared i j).1 j') ∧
      ∀ j' ∈ w.tasks.eraseIdx k, FoundsAt w.shared j' → FoundsAt (runJob C w.shared i j).1 j'
    rw [hcall]
    refine ⟨trivial, heff.next, List.forall_mem_nil _, fun j' hj' hat' => ?_⟩
    rcases heff.others with hsame | hwhy
    · exact ⟨hat'.founding, fun cfg hcfg => (hat'.intact cfg hcfg).congr hsame⟩
    · exact foundsAt_none hat'.founding (hothers hact j hk hwhy j' hj')
  · subst hj
    exact foundsAt_none hs (network?_of_starts hstarts)
  · rcases Job.drop_cases hd with ⟨-, rfl⟩ | ⟨r, t, t', rfl, -, -⟩
    · exact foundsAt_none rfl rfl
    · cases hj.founding
  · have harrive := arriveEffect w.shared e
    exact ⟨hj.founding, fun cfg hcfg =>
      (hj.intact cfg hcfg).congr ⟨harrive.config, harrive.disk, harrive.torn⟩⟩

theorem oneNetwork_of_exclusive (h : Exclusive w) : OneNetwork w where
  once := by
    refine le_trans (List.countP_mono_left fun j hj hok => ?_) h.once
    have hfounding := (h.inv.tasks j hj).founding
    cases j with
    | returned r =>
      cases r with
      | error e => cases hok
      | ok network => exact hfounding
    | _ => cases hok
  intact j hj := (h.inv.tasks j hj).intact

/-! ## 4. One network -/

/-- **One network per device**, as long as no call takes over from another. Let any number of
    creations and joins run on a device, in any order, with any failure and any drop. Where each of
    them writes or forgets a config only while no other has put up a network, one at most returns
    `Ok`, and what a call has put up is in memory and on disk, in every state of the run. -/
theorem one_network (C : Crates) (d : Device) (l : List (Act Job Inputs Arrival))
    (hs : ∀ a ∈ l, Founds a) (hl : EachStep (lifecycle C).step Excludes ⟨d, []⟩ l) :
    Throughout (lifecycle C).step OneNetwork ⟨d, []⟩ l := by
  intro pre post hpre
  subst hpre
  have hstart : Exclusive ⟨d, []⟩ := ⟨Nat.zero_le _, trivial, List.forall_mem_nil _⟩
  have hsteps := (eachStep_append.mp (eachStep_and hs hl)).1
  exact oneNetwork_of_exclusive (run_invariant_of_eachStep
    (fun w a hw ha => exclusive_step (C := C) hw ha.1 ha.2) hstart hsteps)

namespace Sample

/-- The ticket of the sample's network. -/
def ticket : JoinTicket := ⟨"sample", (10, 99, 0, 0), ⟨NET⟩, key 1⟩

/-- A join at place 0 is in its handshake while a creation at place 1 runs to its end; then the
    member declines. -/
def declinedBehind : List (Act Job Inputs Arrival) :=
  [.start (.join ticket), .go 0 {}] ++ creates 1 8 ++
    [.go 0 { approved := .error "declined" }, .go 0 {}, .go 0 {}]

end Sample

/-- A network is created at place 0, and the join behind it is refused. -/
theorem one_network_sample :
    Throughout (lifecycle .plain).step OneNetwork ⟨Sample.single, []⟩
      (Sample.creates 0 8 ++ [.start (.join Sample.ticket), .go 1 {}]) :=
  one_network .plain Sample.single _ (by decide) (by decide +kernel)

/-- **A join that fails takes a network with it** that was created during its handshake, behind
    an `Ok`. -/
theorem network_not_one :
    ¬ ∀ (d : Device) (l : List (Act Job Inputs Arrival)), (∀ a ∈ l, Founds a) →
      Throughout (lifecycle .plain).step OneNetwork ⟨d, []⟩ l := by
  intro h
  have hend := throughout_end (h Sample.single Sample.declinedBehind (by decide))
  have hsome : ∃ j ∈ (run (lifecycle .plain).step ⟨Sample.single, []⟩
      Sample.declinedBehind).tasks, j.network?.isSome = true ∧ j.activating = false := by
    decide +kernel
  have hnone : (run (lifecycle .plain).step ⟨Sample.single, []⟩
      Sample.declinedBehind).shared.config = none := by decide +kernel
  obtain ⟨j, hj, hholds, hactivating⟩ := hsome
  obtain ⟨cfg, hcfg⟩ := Option.isSome_iff_exists.mp hholds
  have hconfig := (hend.intact j hj cfg hcfg).config hactivating
  rw [hnone] at hconfig
  cases hconfig

end Nullgate
