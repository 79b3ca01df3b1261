/-
  File:      Nullgate/Membership/Joining.lean
  Subject:   A JOIN FROM BOTH ENDS (`engine.rs`, `join_handshake` and `handle_join_incoming`).

  Any number of devices call `join_network`. Each dials a member, proves the PSK, sends its request
  on a stream, and waits for the answer on it; behind an approval it opens the network and looks for
  itself in the fold. The member runs a handler for each connection (`Membership.Approval`). Who the
  other end of a connection is, TLS says.

  * `JoinCall`, `joinerNext`: the joiner's end, await by await;
  * `Joins` -- the member with its handlers, the calls, and the connections between them;
  * `Joins.Inv`: each session of the member belongs to a call, and asks what the call asks;
  * **`joined_approved`**: behind each call that has returned stands a session of its own, one
    approval of the request it sent, the entry that was published for it, and a fold that has it.
-/
import Nullgate.Membership.Approval
import Nullgate.Roster.Access

namespace Nullgate

open Nullgate.Lib Admission JoinHost

/-! ## 1. The joiner -/

/-- Where `join_handshake` is, and behind it the teardown of `join_network`. -/
inductive JoinerPoint where
  | dialing
  | handshaking
  | requesting
  /-- for the member's decision -/
  | awaiting
  /-- accepted: `activate`, then `save_config` -/
  | opening
  | saving
  | polling (left : Nat)
  | tearing (error : String)
  | returned (result : Except String Unit)
  deriving DecidableEq

/-- **A call of `join_network`, and its connection.** -/
structure JoinCall where
  /-- the device that calls -/
  id : Id
  /-- its hostname, and the invite of its ticket -/
  asks : JoinRequest
  /-- `roster_cfg` of the ticket -/
  cfg : Config
  /-- the dialed member is not the one modelled here: it may answer as it likes -/
  elsewhere : Bool
  point : JoinerPoint := .dialing
  /-- the emoji shown on the joiner's screen -/
  sas : Option (List String) := none
  /-- what is written on the stream, from either side -/
  request : Option JoinRequest := none
  response : Option JoinResponse := none
  /-- the network is open on the device -/
  opened : Bool := false
  /-- the content of the last document that was folded -/
  folded : Option (List Entry) := none

/-- What a stretch of the joiner is given. -/
structure JoinerInputs where
  /-- the error of what it has awaited -/
  failed : Option String := none
  sas : List String := []
  /-- the document at the poll, if there is one and it can be read -/
  doc : Option (List Entry) := none
  clock : UInt64 := 0

/-- The error of a poll that has run out. -/
def NOT_ADDED : String :=
  "the request was approved but this device wasn't added — the invite may have just been used " ++
    "or expired. Ask for a new code."

/-- **What the joiner does next.** -/
def joinerNext (C : Crates) (call : JoinCall) (i : JoinerInputs) : JoinCall :=
  match call.point, i.failed with
  | .polling 0, _ => { call with opened := false, point := .tearing NOT_ADDED }
  | .polling (left + 1), _ =>
    match i.doc with
    | none => { call with point := .polling left }
    | some E =>
      if (Roster.build C.toPrimitives i.clock call.cfg E).isMember call.id then
        { call with folded := some E, point := .returned (.ok ()) }
      else { call with folded := some E, point := .polling left }
  | .tearing e, _ => { call with opened := false, point := .returned (.error e) }
  | .returned result, _ => { call with point := .returned result }
  | _, some e => { call with point := .tearing e }
  | .dialing, none => { call with point := .handshaking }
  | .handshaking, none => { call with sas := some i.sas, point := .requesting }
  | .requesting, none => { call with request := some call.asks, point := .awaiting }
  | .awaiting, none =>
    match call.response with
    | none => call
    | some .approved => { call with point := .opening }
    | some (.denied reason) =>
      { call with point := .tearing (reason.getD "the member declined the join request") }
  | .opening, none => { call with opened := true, point := .saving }
  | .saving, none => { call with point := .polling 30 }

/-- The request's future is dropped, unless the call has returned. -/
def JoinCall.abandoned (call : JoinCall) : JoinCall :=
  match call.point with
  | .returned _ => call
  | _ => { call with point := .returned (.error "cancelled") }

/-- The joiner has read that it was approved. -/
def JoinerPoint.accepted : JoinerPoint → Bool
  | .opening | .saving | .polling _ | .returned (.ok _) => true
  | _ => false

/-- The joiner has opened the network, and not closed it again. -/
def JoinerPoint.inside : JoinerPoint → Bool
  | .saving | .polling _ | .returned (.ok _) => true
  | _ => false

/-! ## 2. Both ends -/

/-- **The member, the calls, and which handler has which connection.** -/
structure Joins where
  host : World JoinHost JoinTask
  calls : List JoinCall := []
  /-- the call at the other end of the handler's connection -/
  line : Nat → Option Nat := fun _ => none
  /-- the handler of each session, as the sessions register -/
  owner : List Nat := []

inductive JoinEvent where
  | dial (id : Id) (asks : JoinRequest) (cfg : Config) (elsewhere : Bool)
  /-- the member accepts the connection of a call -/
  | accept (c : Nat)
  | joiner (c : Nat) (i : JoinerInputs)
  /-- the caller hangs up -/
  | abandon (c : Nat)
  /-- another member's answer -/
  | forge (c : Nat) (resp : JoinResponse)
  /-- a handler goes on or is dropped, an approval, the rest of the engine -/
  | host (a : Act JoinTask JoinInputs JoinOutside)

namespace Joins

variable (C : Crates) (s : Joins)

/-- Who is at the other end of the handler's connection. -/
def caller (k : Nat) : Option JoinCall := (s.line k).bind (s.calls[·]?)

/-- What a connection gives to its handler: the id is the one of its TLS certificate, and what is
    read is what the joiner has written. A read may fail at any time. -/
def given (k : Nat) (i : JoinInputs) : JoinInputs :=
  { i with
    verified := i.verified.bind fun v => (s.caller k).map fun call => ⟨call.id, v.sas⟩
    req := i.req.bind fun _ => (s.caller k).bind JoinCall.request }

def fed : Act JoinTask JoinInputs JoinOutside → Act JoinTask JoinInputs JoinOutside
  | .go k i => .go k (s.given k i)
  | a => a

/-- The handlers of the sessions, where one registers. -/
def owners : Act JoinTask JoinInputs JoinOutside → List Nat
  | .go k _ =>
    match s.host.tasks[k]? with
    | some (.join (.registering _)) => s.owner ++ [k]
    | _ => s.owner
  | _ => s.owner

/-- The calls, where one is answered. -/
def answered : Act JoinTask JoinInputs JoinOutside → List JoinCall
  | .go k _ =>
    match s.host.tasks[k]?, s.line k with
    | some (.join (.answering _ resp)), some c =>
      s.calls.modify c fun call => { call with response := some resp }
    | _, _ => s.calls
  | _ => s.calls

/-- The member goes on. -/
def hostStep (a : Act JoinTask JoinInputs JoinOutside) : Joins :=
  { s with
    host := (joins C).step s.host (s.fed a)
    owner := s.owners a
    calls := s.answered a }

/-- The connection of the call waits to be accepted by this member. -/
def waits (c : Nat) : Bool :=
  s.calls[c]?.any (fun call => !call.elsewhere) &&
    (List.range s.host.tasks.length).all fun k => s.line k != some c

def step : JoinEvent → Joins
  | .dial id asks cfg elsewhere =>
    { s with calls := s.calls ++ [{ id, asks, cfg, elsewhere }] }
  | .accept c =>
    if s.waits c then
      { s with
        host := (joins C).step s.host (.start (.join .accepting))
        line := Function.update s.line s.host.tasks.length (some c) }
    else s
  | .joiner c i => { s with calls := s.calls.modify c (joinerNext C · i) }
  | .abandon c => { s with calls := s.calls.modify c JoinCall.abandoned }
  | .forge c resp =>
    { s with
      calls := s.calls.modify c fun call =>
        if call.elsewhere then { call with response := some resp } else call }
  -- the handlers are spawned by the router alone
  | .host (.start (.join _)) => s
  | .host a => s.hostStep C a

end Joins

/-- A member that nobody has dialed yet. -/
def unasked (i : Inner) : Joins := { host := listening i }

/-! ## 3. What the history says -/

namespace Joins

variable (C : Crates) (s : Joins)

/-- A session of the call registered, and its handler has published an entry. -/
def Answered (c : Nat) : Prop :=
  ∃ n o, s.owner[n]?.bind s.line = some c ∧ (n, o) ∈ s.host.shared.published

/-- The session is the handler's, over a connection of a call, and asks what the call asks. -/
def Asked (k : Nat) (ses : JoinSession) : Prop :=
  ∃ c call, s.line k = some c ∧ s.calls[c]? = some call ∧
    ses.verified.peerId = call.id ∧ ses.req = call.asks

/-- What holds where the `k`th task of the member stands. -/
def Where (k : Nat) : JoinTask → Prop
  | .join (.reading _ v) =>
    ∃ c call, s.line k = some c ∧ s.calls[c]? = some call ∧ v.peerId = call.id
  | .join (.checking ses) | .join (.registering ses) => s.Asked k ses
  | .join (.surfacing n _) | .join (.waiting n _) | .join (.admitting n _)
  | .join (.publishing n _) => s.owner[n]? = some k
  | .join (.answering (some n) resp) =>
    s.owner[n]? = some k ∧ (resp = .approved → ∃ o, (n, o) ∈ s.host.shared.published)
  | .join (.answering none resp) => resp ≠ .approved
  | _ => True

/-- What holds of a call. -/
structure CallOk (c : Nat) (call : JoinCall) : Prop where
  request : ∀ req ∈ call.request, req = call.asks
  response : call.elsewhere = false → call.response = some .approved → s.Answered c
  accepted : call.elsewhere = false → call.opened = true ∨ call.point.accepted = true →
    s.Answered c
  inside : call.point.inside = true → call.opened = true
  joined : call.point = .returned (.ok ()) →
    ∃ E clock, call.folded = some E ∧ Vouched C.toPrimitives clock call.cfg E call.id

/-- **The invariant.** -/
structure Inv : Prop where
  host : s.host.Inv (JoinHost.Inv C) (At C)
  fresh : ∀ k, s.host.tasks.length ≤ k → s.line k = none
  length : s.owner.length = s.host.shared.sessions.length
  tasks : ∀ (k : Nat) (t : JoinTask), s.host.tasks[k]? = some t → s.Where k t
  sessions : ∀ (n : Nat) (ses : JoinSession) (k : Nat), s.host.shared.sessions[n]? = some ses →
    s.owner[n]? = some k → s.Asked k ses
  calls : ∀ (c : Nat) (call : JoinCall), s.calls[c]? = some call → s.CallOk C c call

/-- What a step leaves of what is known. -/
structure Kept (s s' : Joins) : Prop where
  calls : ∀ (c : Nat) (call : JoinCall), s.calls[c]? = some call →
    ∃ call', s'.calls[c]? = some call' ∧ call'.id = call.id ∧ call'.asks = call.asks
  line : ∀ k c, s.line k = some c → s'.line k = some c
  owner : s.owner <+: s'.owner
  published : s.host.shared.published ⊆ s'.host.shared.published

variable {C s} {s' : Joins} {c k : Nat} {call : JoinCall}

theorem Kept.owned {n : Nat} (h : Kept s s') (hn : s.owner[n]? = some k) :
    s'.owner[n]? = some k := by
  obtain ⟨more, hmore⟩ := h.owner
  rw [← hmore, List.getElem?_append_left (List.getElem?_eq_some_iff.mp hn).1, hn]

theorem Kept.answered (h : Kept s s') (hc : s.Answered c) : s'.Answered c := by
  obtain ⟨n, o, hn, ho⟩ := hc
  obtain ⟨k, hk, hline⟩ := Option.bind_eq_some_iff.mp hn
  refine ⟨n, o, ?_, h.published ho⟩
  rw [h.owned hk]
  exact h.line k c hline

theorem Kept.asked {ses : JoinSession} (h : Kept s s') (hk : s.Asked k ses) : s'.Asked k ses := by
  obtain ⟨c, call, hline, hcall, hid, hreq⟩ := hk
  obtain ⟨call', hcall', hid', hasks'⟩ := h.calls c call hcall
  exact ⟨c, call', h.line k c hline, hcall', hid.trans hid'.symm, hreq.trans hasks'.symm⟩

theorem Kept.where {t : JoinTask} (h : Kept s s') (ht : s.Where k t) : s'.Where k t := by
  cases t with
  | decide p => trivial
  | join p =>
    cases p with
    | reading netId v =>
      obtain ⟨c, call, hline, hcall, hid⟩ := ht
      obtain ⟨call', hcall', hid', -⟩ := h.calls c call hcall
      exact ⟨c, call', h.line k c hline, hcall', hid.trans hid'.symm⟩
    | checking ses | registering ses => exact h.asked ht
    | surfacing n ses | waiting n ses | admitting n ses | publishing n ses => exact h.owned ht
    | answering n resp =>
      cases n with
      | none => exact ht
      | some n =>
        refine ⟨h.owned ht.1, fun hresp => ?_⟩
        obtain ⟨o, ho⟩ := ht.2 hresp
        exact ⟨o, h.published ho⟩
    | _ => trivial

theorem Kept.callOk (h : Kept s s') (hc : s.CallOk C c call) : s'.CallOk C c call where
  request := hc.request
  response he hr := h.answered (hc.response he hr)
  accepted he ha := h.answered (hc.accepted he ha)
  inside := hc.inside
  joined := hc.joined

/-! ## 4. The joiner's end -/

/-- **A change of one call** that keeps who asks for what, and what holds of the call. -/
theorem Inv.modify (h : s.Inv C) (f : JoinCall → JoinCall)
    (hid : ∀ call, (f call).id = call.id ∧ (f call).asks = call.asks)
    (hok : ∀ call, s.CallOk C c call → s.CallOk C c (f call)) :
    Inv C { s with calls := s.calls.modify c f } := by
  have hkept : Kept s { s with calls := s.calls.modify c f } :=
    { calls := fun c' call hcall => by
        refine ⟨if c = c' then f call else call, ?_, ?_⟩
        · show (s.calls.modify c f)[c']? = _
          rw [List.getElem?_modify, hcall]
          split <;> rfl
        · split
          · exact hid call
          · exact ⟨rfl, rfl⟩
      line := fun k c hk => hk
      owner := List.prefix_rfl
      published := List.Subset.refl _ }
  refine ⟨h.host, h.fresh, h.length, fun k t hk => hkept.where (h.tasks k t hk),
    fun n ses k hn hk => hkept.asked (h.sessions n ses k hn hk), fun c' call hcall => ?_⟩
  have hcall' : (s.calls.modify c f)[c']? = some call := hcall
  rw [List.getElem?_modify] at hcall'
  obtain ⟨call₀, hcall₀, rfl⟩ := Option.map_eq_some_iff.mp hcall'
  have hold := h.calls c' call₀ hcall₀
  refine hkept.callOk ?_
  split
  · rename_i heq
    subst heq
    exact hok call₀ hold
  · exact hold

theorem joinerNext_kept (C : Crates) (call : JoinCall) (i : JoinerInputs) :
    (joinerNext C call i).id = call.id ∧ (joinerNext C call i).asks = call.asks := by
  unfold joinerNext
  split
  all_goals first | exact ⟨rfl, rfl⟩ | skip
  · split
    · exact ⟨rfl, rfl⟩
    · split <;> exact ⟨rfl, rfl⟩
  · split <;> exact ⟨rfl, rfl⟩

/-- The call goes on to a point where it claims nothing new. -/
theorem CallOk.moves (h : s.CallOk C c call) {p : JoinerPoint}
    (haccepted : p.accepted = true → call.point.accepted = true)
    (hinside : p.inside = true → call.opened = true) (hp : p ≠ .returned (.ok ())) :
    s.CallOk C c { call with point := p } where
  request := h.request
  response := h.response
  accepted he ha := h.accepted he (ha.imp_right haccepted)
  inside := hinside
  joined hj := absurd hj hp

/-- The call is torn down. -/
theorem CallOk.closes (h : s.CallOk C c call) {p : JoinerPoint} (hp : p.accepted = false)
    (hp' : p.inside = false) : s.CallOk C c { call with opened := false, point := p } where
  request := h.request
  response := h.response
  accepted he ha := by
    rcases ha with ha | ha
    · cases ha
    · rw [hp] at ha
      cases ha
  inside hin := by
    rw [hp'] at hin
    cases hin
  joined hj := by
    have hpoint : p = .returned (.ok ()) := hj
    rw [hpoint] at hp
    cases hp

/-- **What a stretch of the joiner keeps.** -/
theorem CallOk.joinerNext (h : s.CallOk C c call) (i : JoinerInputs) :
    s.CallOk C c (joinerNext C call i) := by
  unfold Nullgate.joinerNext
  split
  · exact h.closes rfl rfl
  · rename_i left _ hp
    have hin : call.opened = true := h.inside (by rw [hp]; rfl)
    split
    · exact h.moves (fun _ => by rw [hp]; rfl) (fun _ => hin) nofun
    split
    · rename_i E _ hmember
      exact ⟨h.request, h.response, fun he _ => h.accepted he (Or.inl hin), fun _ => hin,
        fun _ => ⟨E, i.clock, rfl, isMember_build_iff.mp hmember⟩⟩
    · exact ⟨h.request, h.response, fun he _ => h.accepted he (Or.inl hin), fun _ => hin, nofun⟩
  · exact h.closes rfl rfl
  · rename_i result _ hp
    rw [← hp]
    exact h
  · exact h.moves nofun nofun nofun
  · exact h.moves nofun nofun nofun
  · exact ⟨h.request, h.response, fun he ha => h.accepted he (ha.imp_right nofun), nofun, nofun⟩
  · exact ⟨fun req hreq => (Option.some.inj hreq).symm, h.response,
      fun he ha => h.accepted he (ha.imp_right nofun), nofun, nofun⟩
  · split
    · exact h
    · rename_i hresp
      exact ⟨h.request, h.response, fun he _ => h.response he hresp, nofun, nofun⟩
    · exact h.moves nofun nofun nofun
  · rename_i hp _
    have hacc : call.point.accepted = true := by rw [hp]; rfl
    exact ⟨h.request, h.response, fun he _ => h.accepted he (Or.inr hacc), fun _ => rfl, nofun⟩
  · rename_i hp _
    exact h.moves (fun _ => by rw [hp]; rfl) (fun _ => h.inside (by rw [hp]; rfl)) nofun

theorem CallOk.abandoned (h : s.CallOk C c call) : s.CallOk C c call.abandoned := by
  unfold JoinCall.abandoned
  split
  · exact h
  · exact h.moves nofun nofun nofun

theorem CallOk.forged (h : s.CallOk C c call) (resp : JoinResponse) :
    s.CallOk C c
      (if call.elsewhere then { call with response := some resp } else call) := by
  split
  · rename_i helse
    refine ⟨h.request, fun he _ => ?_, h.accepted, h.inside, h.joined⟩
    rw [helse] at he
    cases he
  · exact h

/-! ## 5. The member's end -/

/-- The sessions behind a stretch of a handler. -/
theorem joinNext_sessions (s : JoinHost) (i : JoinInputs) (p : JoinPoint) :
    (joinNext C s i p).1.sessions = match p with
      | .registering ses => s.sessions ++ [ses]
      | _ => s.sessions := by
  cases p with
  | registering ses | surfacing n ses | closed => rfl
  | answering n resp => cases n <;> rfl
  | _ =>
    unfold joinNext
    dsimp only
    split <;> rfl

theorem joinNext_published (s : JoinHost) (i : JoinInputs) (p : JoinPoint) :
    s.published ⊆ (joinNext C s i p).1.published := by
  cases p with
  | registering ses | surfacing n ses | closed => exact List.Subset.refl _
  | answering n resp => cases n <;> exact List.Subset.refl _
  | publishing n entry =>
    unfold joinNext
    dsimp only
    split
    · exact List.Subset.refl _
    · exact List.subset_append_left _ _
  | _ =>
    unfold joinNext
    dsimp only
    split <;> exact List.Subset.refl _

theorem decideNext_frame (s : JoinHost) (p : DecidePoint) :
    (decideNext s p).1.sessions = s.sessions ∧ (decideNext s p).1.published = s.published := by
  cases p with
  | sending n approve | returned result => exact ⟨rfl, rfl⟩
  | _ =>
    unfold decideNext
    dsimp only
    split <;> exact ⟨rfl, rfl⟩

theorem host_go {t : JoinTask} (hk : s.host.tasks[k]? = some t) (i : JoinInputs) :
    (s.hostStep C (.go k i)).host =
      ⟨((joins C).stretch s.host.shared (s.given k i) t).1,
        s.host.tasks.set k ((joins C).stretch s.host.shared (s.given k i) t).2.1 ++
          ((joins C).stretch s.host.shared (s.given k i) t).2.2⟩ :=
  Program.step_go (P := joins C) hk (s.given k i)

/-- **A call behind a step of the member** is the call before it, or has been answered by its
    handler. -/
theorem answered_cases {a : Act JoinTask JoinInputs JoinOutside}
    (h : (s.answered a)[c]? = some call) :
    s.calls[c]? = some call ∨ ∃ k i n resp call₀, a = .go k i ∧ s.line k = some c ∧
      s.host.tasks[k]? = some (.join (.answering n resp)) ∧ s.calls[c]? = some call₀ ∧
      call = { call₀ with response := some resp } := by
  cases a with
  | go k i =>
    unfold answered at h
    dsimp only at h
    split at h
    · rename_i n resp c' htask hline
      rw [List.getElem?_modify] at h
      obtain ⟨call₀, hcall₀, rfl⟩ := Option.map_eq_some_iff.mp h
      split
      · rename_i heq
        subst heq
        exact Or.inr ⟨k, i, n, resp, call₀, rfl, hline, htask, hcall₀, rfl⟩
      · exact Or.inl hcall₀
    · exact Or.inl h
  | start t | drop k | env e => exact Or.inl h

theorem answered_kept (a : Act JoinTask JoinInputs JoinOutside) (h : s.calls[c]? = some call) :
    ∃ call', (s.answered a)[c]? = some call' ∧ call'.id = call.id ∧ call'.asks = call.asks := by
  cases a with
  | go k i =>
    unfold answered
    dsimp only
    split
    · rename_i n resp c' _ _
      refine ⟨if c' = c then { call with response := some resp } else call, ?_, ?_⟩
      · rw [List.getElem?_modify, h]
        split <;> rfl
      · split <;> exact ⟨rfl, rfl⟩
    · exact ⟨call, h, rfl, rfl⟩
  | start t | drop k | env e => exact ⟨call, h, rfl, rfl⟩

theorem owner_prefix (a : Act JoinTask JoinInputs JoinOutside) : s.owner <+: s.owners a := by
  cases a with
  | go k i =>
    unfold owners
    dsimp only
    split
    · exact List.prefix_append _ _
    · exact List.prefix_rfl
  | start t | drop k | env e => exact List.prefix_rfl

theorem published_hostStep (C : Crates) (s : Joins) (a : Act JoinTask JoinInputs JoinOutside) :
    s.host.shared.published ⊆ (s.hostStep C a).host.shared.published := by
  rcases (joins C).step_cases s.host (s.fed a) with ⟨-, -, he⟩ | ⟨k, i, t, -, hk, he⟩ |
    ⟨t, -, -, he⟩ | ⟨k, t, t', -, -, -, he⟩ | ⟨e, -, he⟩
  · show _ ⊆ ((joins C).step s.host (s.fed a)).shared.published
    rw [he]
    exact List.Subset.refl _
  · show _ ⊆ ((joins C).step s.host (s.fed a)).shared.published
    rw [he]
    cases t with
    | join p => exact joinNext_published _ _ p
    | decide p =>
      show _ ⊆ (decideNext s.host.shared p).1.published
      rw [(decideNext_frame s.host.shared p).2]
      exact List.Subset.refl _
  · show _ ⊆ ((joins C).step s.host (s.fed a)).shared.published
    rw [he]
    exact List.Subset.refl _
  · show _ ⊆ ((joins C).step s.host (s.fed a)).shared.published
    rw [he]
    exact List.Subset.refl _
  · show _ ⊆ ((joins C).step s.host (s.fed a)).shared.published
    rw [he]
    cases e <;> exact List.Subset.refl _

theorem kept_hostStep (C : Crates) (s : Joins) (a : Act JoinTask JoinInputs JoinOutside) :
    Kept s (s.hostStep C a) where
  calls _ _ h := answered_kept a h
  line _ _ h := h
  owner := owner_prefix a
  published := published_hostStep C s a

/-- **Where a handler gets to.** -/
theorem Inv.where_next {p : JoinPoint} (h : s.Inv C) (hk : s.host.tasks[k]? = some (.join p))
    (i : JoinInputs) : (s.hostStep C (.go k i)).Where k
      (.join (joinNext C s.host.shared (s.given k i) p).2) := by
  have hkept := kept_hostStep C s (.go k i)
  have hat := h.tasks k _ hk
  cases p with
  | accepting =>
    unfold joinNext
    dsimp only
    split <;> trivial
  | handshaking netId =>
    unfold joinNext
    dsimp only
    split
    · trivial
    · rename_i v hv
      refine hkept.where (t := .join (.reading netId v)) ?_
      obtain ⟨v', -, hv⟩ := Option.bind_eq_some_iff.mp hv
      obtain ⟨call, hcall, rfl⟩ := Option.map_eq_some_iff.mp hv
      obtain ⟨c, hline, hcall⟩ := Option.bind_eq_some_iff.mp hcall
      exact ⟨c, call, hline, hcall, rfl⟩
  | reading netId v =>
    unfold joinNext
    dsimp only
    split
    · trivial
    · rename_i req hreq
      refine hkept.where (t := .join (.checking ⟨netId, v, req⟩)) ?_
      obtain ⟨c, call, hline, hcall, hid⟩ := hat
      have hcaller : s.caller k = some call := by
        rw [caller, hline]
        exact hcall
      obtain ⟨-, -, hreq⟩ := Option.bind_eq_some_iff.mp hreq
      rw [hcaller] at hreq
      exact ⟨c, call, hline, hcall, hid, (h.calls c call hcall).request req hreq⟩
  | checking ses =>
    unfold joinNext
    dsimp only
    split
    · exact hkept.where (t := .join (.registering ses)) hat
    · exact nofun
    · exact nofun
  | registering ses =>
    show (s.owners (.go k i))[s.host.shared.sessions.length]? = some k
    unfold owners
    simp only [hk]
    rw [← h.length]
    exact List.getElem?_concat_length
  | surfacing n ses => exact hkept.owned hat
  | waiting n ses =>
    have hn := hkept.owned hat
    unfold joinNext
    dsimp only
    split
    · exact hn
    · exact hn
    · exact ⟨hn, nofun⟩
    · exact ⟨hn, nofun⟩
  | admitting n ses =>
    have hn := hkept.owned hat
    unfold joinNext
    dsimp only
    split
    · exact ⟨hn, nofun⟩
    · exact hn
  | publishing n entry =>
    have hn := hkept.owned hat
    unfold joinNext
    dsimp only
    split
    · exact ⟨hn, nofun⟩
    · rename_i o ho
      refine ⟨hn, fun _ => ⟨o, ?_⟩⟩
      rw [host_go hk]
      show (n, o) ∈ (joinNext C s.host.shared (s.given k i) (.publishing n entry)).1.published
      simp only [joinNext, ho]
      exact List.mem_append_right _ (List.mem_singleton_self _)
  | answering n resp => cases n <;> trivial
  | closed => trivial

/-- What stood so before, stands so; what is new has to be shown. -/
theorem Inv.of_kept (h : s.Inv C) (hkept : Kept s s')
    (hhost : s'.host.Inv (JoinHost.Inv C) (At C))
    (hfresh : ∀ k, s'.host.tasks.length ≤ k → s'.line k = none)
    (hlength : s'.owner.length = s'.host.shared.sessions.length)
    (htasks : ∀ (k : Nat) (t : JoinTask), s'.host.tasks[k]? = some t →
      s.host.tasks[k]? = some t ∨ s'.Where k t)
    (hsessions : ∀ (n : Nat) (ses : JoinSession) (k : Nat),
      s'.host.shared.sessions[n]? = some ses → s'.owner[n]? = some k →
      (s.host.shared.sessions[n]? = some ses ∧ s.owner[n]? = some k) ∨ s'.Asked k ses)
    (hcalls : ∀ (c : Nat) (call : JoinCall), s'.calls[c]? = some call →
      s.calls[c]? = some call ∨ s'.CallOk C c call) : s'.Inv C where
  host := hhost
  fresh := hfresh
  length := hlength
  tasks k t hk := (htasks k t hk).elim (fun hold => hkept.where (h.tasks k t hold)) id
  sessions n ses k hn hk :=
    (hsessions n ses k hn hk).elim (fun hold => hkept.asked (h.sessions n ses k hold.1 hold.2)) id
  calls c call hc := (hcalls c call hc).elim (fun hold => hkept.callOk (h.calls c call hold)) id

/-- A step of the member that runs no handler. -/
theorem Inv.aside (h : s.Inv C) {w : World JoinHost JoinTask}
    (hhost : w.Inv (JoinHost.Inv C) (At C)) (hlen : s.host.tasks.length ≤ w.tasks.length)
    (hsessions : w.shared.sessions = s.host.shared.sessions)
    (hpublished : w.shared.published = s.host.shared.published)
    (htasks : ∀ (k : Nat) (t : JoinTask), w.tasks[k]? = some t →
      s.host.tasks[k]? = some t ∨ { s with host := w }.Where k t) : Inv C { s with host := w } := by
  refine h.of_kept ⟨fun c call hc => ⟨call, hc, rfl, rfl⟩, fun _ _ hk => hk, List.prefix_rfl,
    ?_⟩ hhost (fun k hk => h.fresh k (hlen.trans hk)) ?_ htasks
    (fun n ses k hn hk => Or.inl ⟨?_, hk⟩) fun c call hc => Or.inl hc
  · show _ ⊆ w.shared.published
    rw [hpublished]
    exact List.Subset.refl _
  · show s.owner.length = w.shared.sessions.length
    rw [hsessions]
    exact h.length
  · have hn' : w.shared.sessions[n]? = some ses := hn
    rwa [hsessions] at hn'

/-- **A stretch of a handler.** -/
theorem Inv.handler {p : JoinPoint} (h : s.Inv C) (hk : s.host.tasks[k]? = some (.join p))
    (i : JoinInputs) : (s.hostStep C (.go k i)).Inv C := by
  have hgo := host_go (C := C) hk i
  have hlen : (s.hostStep C (.go k i)).host.tasks.length = s.host.tasks.length := by
    rw [hgo]
    simp [joins]
  have hshared : (s.hostStep C (.go k i)).host.shared =
      (joinNext C s.host.shared (s.given k i) p).1 := by
    rw [hgo]
    rfl
  have hsessions := joinNext_sessions (C := C) s.host.shared (s.given k i) p
  rw [← hshared] at hsessions
  have howner : (s.hostStep C (.go k i)).owner = s.owners (.go k i) := rfl
  refine h.of_kept (kept_hostStep C s _) (JoinHost.inv_step h.host (s.fed (.go k i)))
    (fun j hj => h.fresh j (hlen ▸ hj)) ?_ (fun j t hj => ?_) (fun n ses j hn hj => ?_)
    fun c call hc => ?_
  · rw [hsessions, howner, owners]
    simp only [hk]
    cases p with
    | registering ses => simp [h.length]
    | _ => exact h.length
  · rw [hgo] at hj
    have hj' : (s.host.tasks.set k
        (.join (joinNext C s.host.shared (s.given k i) p).2) ++ [])[j]? = some t := hj
    rw [List.append_nil] at hj'
    rcases getElem?_set_cases hj' with hold | ⟨rfl, rfl⟩
    · exact Or.inl hold
    · exact Or.inr (h.where_next hk i)
  · rw [hsessions] at hn
    rw [howner, owners] at hj
    simp only [hk] at hj
    cases p with
    | registering ses' =>
      have hn' : (s.host.shared.sessions ++ [ses'])[n]? = some ses := hn
      have hj' : (s.owner ++ [k])[n]? = some j := hj
      rw [List.getElem?_append] at hn' hj'
      rw [h.length] at hj'
      split at hn'
      · rename_i hold
        rw [if_pos hold] at hj'
        exact Or.inl ⟨hn', hj'⟩
      · rename_i hnew
        rw [if_neg hnew] at hj'
        -- the session that has registered is the one of the handler
        obtain rfl := List.mem_singleton.mp (List.mem_of_getElem? hn')
        obtain rfl := List.mem_singleton.mp (List.mem_of_getElem? hj')
        exact Or.inr ((kept_hostStep C s _).asked (h.tasks _ _ hk))
    | _ => exact Or.inl ⟨hn, hj⟩
  · have hc' : (s.answered (.go k i))[c]? = some call := hc
    rcases answered_cases hc' with hold | ⟨k', i', n, resp, call₀, ha, hline, htask, hcall₀, rfl⟩
    · exact Or.inl hold
    · obtain ⟨rfl, rfl⟩ := Act.go.inj ha
      have hwhere := h.tasks k _ htask
      have hcall := (kept_hostStep C s (.go k i)).callOk (h.calls c call₀ hcall₀)
      refine Or.inr ⟨hcall.request, fun _ hresp => ?_, hcall.accepted, hcall.inside, hcall.joined⟩
      obtain rfl := Option.some.inj hresp
      cases n with
      | none => exact absurd rfl hwhere
      | some n =>
        obtain ⟨o, ho⟩ := hwhere.2 rfl
        refine (kept_hostStep C s _).answered ⟨n, o, ?_, ho⟩
        rw [hwhere.1]
        exact hline

theorem hostStep_aside {a : Act JoinTask JoinInputs JoinOutside}
    (ha : ∀ k i p, a = .go k i → s.host.tasks[k]? ≠ some (.join p)) :
    s.hostStep C a = { s with host := (joins C).step s.host (s.fed a) } := by
  cases a with
  | go k i =>
    have howners : s.owners (.go k i) = s.owner := by
      unfold owners
      dsimp only
      split
      · rename_i hk
        exact absurd hk (ha k i _ rfl)
      · rfl
    have hanswered : s.answered (.go k i) = s.calls := by
      unfold answered
      dsimp only
      split
      · rename_i hk _
        exact absurd hk (ha k i _ rfl)
      · rfl
    rw [hostStep, howners, hanswered]
  | start t | drop k | env e => rfl

/-- **What the member does.** -/
theorem Inv.hostStep (h : s.Inv C) (a : Act JoinTask JoinInputs JoinOutside)
    (hspawn : ∀ p, a ≠ .start (.join p)) : (s.hostStep C a).Inv C := by
  by_cases ha : ∃ k i p, a = .go k i ∧ s.host.tasks[k]? = some (.join p)
  · obtain ⟨k, i, p, rfl, hk⟩ := ha
    exact h.handler hk i
  have haside : ∀ k i p, a = .go k i → s.host.tasks[k]? ≠ some (.join p) :=
    fun k i p hgo hk => ha ⟨k, i, p, hgo, hk⟩
  have hinv := JoinHost.inv_step h.host (s.fed a)
  rw [hostStep_aside haside]
  rcases (joins C).step_cases s.host (s.fed a) with ⟨-, -, he⟩ | ⟨k, i, t, hgo, hk, he⟩ |
    ⟨t, hstart, -, he⟩ | ⟨k, t, t', -, -, hdrop, he⟩ | ⟨e, -, he⟩
  · rw [he]
    exact h
  · -- an approval goes on
    obtain ⟨i', rfl⟩ : ∃ i', a = .go k i' := by
      cases a with
      | go k' i' =>
        obtain ⟨rfl, -⟩ := Act.go.inj hgo
        exact ⟨i', rfl⟩
      | start t | drop k | env e => cases hgo
    cases t with
    | join p => exact absurd hk (haside k i' p rfl)
    | decide p =>
      have hframe := decideNext_frame s.host.shared p
      rw [he] at hinv ⊢
      refine h.aside hinv (by simp [joins]) hframe.1 hframe.2 fun j t hj => ?_
      have hj' : (s.host.tasks.set k (.decide (decideNext s.host.shared p).2) ++ [])[j]? =
        some t := hj
      rw [List.append_nil] at hj'
      rcases getElem?_set_cases hj' with hold | ⟨-, rfl⟩
      · exact Or.inl hold
      · exact Or.inr trivial
  · -- an approval begins
    rw [he] at hinv ⊢
    refine h.aside hinv (by simp) rfl rfl fun j t' hj => ?_
    have hj' : (s.host.tasks ++ [t])[j]? = some t' := hj
    rw [List.getElem?_append] at hj'
    split at hj'
    · exact Or.inl hj'
    · obtain rfl := List.mem_singleton.mp (List.mem_of_getElem? hj')
      refine Or.inr ?_
      cases t' with
      | decide p => trivial
      | join p =>
        refine absurd ?_ (hspawn p)
        cases a with
        | start t => exact hstart
        | go k i | drop k | env e => cases hstart
  · -- a task is dropped
    rw [he] at hinv ⊢
    refine h.aside hinv (by simp) rfl rfl fun j t'' hj => ?_
    rcases getElem?_set_cases hj with hold | ⟨-, rfl⟩
    · exact Or.inl hold
    · have hdropped : JoinTask.dropped t = some t'' := hdrop
      unfold JoinTask.dropped at hdropped
      split at hdropped
      · cases hdropped
      · cases hdropped
      · obtain rfl := Option.some.inj hdropped
        exact Or.inr trivial
      · obtain rfl := Option.some.inj hdropped
        exact Or.inr trivial
  · rw [he] at hinv ⊢
    exact h.aside hinv le_rfl (by cases e <;> rfl) (by cases e <;> rfl) fun j t hj => Or.inl hj

/-- **The invariant, over every event.** -/
theorem Inv.step (h : s.Inv C) (ev : JoinEvent) : (s.step C ev).Inv C := by
  cases ev with
  | dial id asks cfg elsewhere =>
    refine h.of_kept ⟨fun c call hc => ⟨call, ?_, rfl, rfl⟩, fun _ _ hk => hk, List.prefix_rfl,
      List.Subset.refl _⟩ h.host h.fresh h.length (fun k t hk => Or.inl hk)
      (fun n ses k hn hk => Or.inl ⟨hn, hk⟩) fun c call hc => ?_
    · exact (List.getElem?_append_left (List.getElem?_eq_some_iff.mp hc).1).trans hc
    · have hc' : (s.calls ++ [_])[c]? = some call := hc
      rw [List.getElem?_append] at hc'
      split at hc'
      · exact Or.inl hc'
      · obtain rfl := List.mem_singleton.mp (List.mem_of_getElem? hc')
        exact Or.inr ⟨nofun, nofun, fun _ ha => ha.elim nofun nofun, nofun, nofun⟩
  | accept c =>
    rw [Joins.step]
    split
    · have hline : s.line s.host.tasks.length = none := h.fresh _ le_rfl
      have hhost : (joins C).step s.host (.start (.join .accepting)) =
          ⟨s.host.shared, s.host.tasks ++ [.join .accepting]⟩ := rfl
      refine h.of_kept ⟨fun c call hc => ⟨call, hc, rfl, rfl⟩, fun k c' hk => ?_, List.prefix_rfl,
        List.Subset.refl _⟩ (JoinHost.inv_step h.host (.start (.join .accepting)))
        (fun k hk => ?_) h.length
        (fun k t hk => ?_) (fun n ses k hn hk => Or.inl ⟨hn, hk⟩) fun c call hc => Or.inl hc
      · refine (Function.update_of_ne ?_ _ _).trans hk
        rintro rfl
        rw [hline] at hk
        cases hk
      · rw [hhost, List.length_append, List.length_singleton] at hk
        exact (Function.update_of_ne (by omega) _ _).trans (h.fresh k (by omega))
      · rw [hhost] at hk
        have hk' : (s.host.tasks ++ [JoinTask.join .accepting])[k]? = some t := hk
        rw [List.getElem?_append] at hk'
        split at hk'
        · exact Or.inl hk'
        · obtain rfl := List.mem_singleton.mp (List.mem_of_getElem? hk')
          exact Or.inr trivial
    · exact h
  | joiner c i =>
    exact h.modify (joinerNext C · i) (fun call => joinerNext_kept C call i)
      fun call hc => hc.joinerNext i
  | abandon c =>
    refine h.modify JoinCall.abandoned (fun call => ?_) fun call hc => hc.abandoned
    unfold JoinCall.abandoned
    split <;> exact ⟨rfl, rfl⟩
  | forge c resp =>
    refine h.modify _ (fun call => ?_) fun call hc => hc.forged resp
    split <;> exact ⟨rfl, rfl⟩
  | host a =>
    by_cases ha : ∃ p, a = .start (.join p)
    · obtain ⟨p, rfl⟩ := ha
      exact h
    · have hstep : s.step C (.host a) = s.hostStep C a := by
        unfold Joins.step
        split
        all_goals simp_all
      rw [hstep]
      exact h.hostStep a fun p hp => ha ⟨p, hp⟩

theorem inv_unasked (i : Inner) : (unasked i).Inv C where
  host := inv_listening i
  fresh _ _ := rfl
  length := rfl
  tasks k t hk := by cases hk
  sessions n ses k hn _ := by cases hn
  calls c call hc := by cases hc

/-! ## 6. The result -/

variable (C s c call) in
/-- **What stands behind a call that was let in**: a session of its own, which asks for what the
    call asks; an entry that admits the device as it asked; and one approval of that session. -/
structure LetIn (n : Nat) : Prop where
  own : s.owner[n]?.bind s.line = some c
  admitted : ∃ ses o, s.host.shared.sessions[n]? = some ses ∧ ses.verified.peerId = call.id ∧
    ses.req = call.asks ∧ (n, o) ∈ s.host.shared.published ∧ Adds C ses o
  approved : ∃ d ∈ s.host.shared.decisions, d.approve = true ∧ d.nodeId = call.id ∧ d.took = n ∧
    ∀ d' ∈ s.host.shared.decisions, d'.took = n → d' = d

theorem Inv.letIn (h : s.Inv C) (hcall : s.calls[c]? = some call) (hc : s.Answered c) :
    ∃ n, s.LetIn C c call n := by
  obtain ⟨n, o, hn, ho⟩ := hc
  obtain ⟨⟨ses, hses, hadds⟩, d, hd, htook, happrove⟩ := h.host.shared.published n o ho
  obtain ⟨k, hk, hline⟩ := Option.bind_eq_some_iff.mp hn
  obtain ⟨c', call', hline', hcall', hid, hasks⟩ := h.sessions n ses k hses hk
  -- the handler has one connection, and that is the call's
  obtain rfl := Option.some.inj (hline.symm.trans hline')
  obtain rfl := Option.some.inj (hcall.symm.trans hcall')
  obtain ⟨⟨ses', hses', hid'⟩, -⟩ := h.host.shared.decisions d hd
  rw [htook, hses] at hses'
  obtain rfl := Option.some.inj hses'
  exact ⟨n, hn, ⟨ses, o, hses, hid, hasks, ho, hadds⟩, d, hd, happrove, hid'.symm.trans hid, htook,
    fun d' hd' htook' =>
      List.inj_on_of_nodup_map h.host.shared.once hd' hd (htook'.trans htook.symm)⟩

end Joins

open Joins

/-- **Who joins was let in.** In every run of a member with any number of devices that dial it or
    others, their handlers, the approvals and denials and the rest of the engine, with reads that
    fail, calls that are given up and other members that answer what they like: a call that has
    opened the network on its device over this member has a session of its own, behind which stand
    one approval, of that device and that session, and a published entry that admits the device
    under the hostname and the invite it asked with. A call that has returned `Ok` has opened the
    network, and found itself in the fold of its document, whoever it dialed. -/
theorem joined_approved (C : Crates) (i : Inner) (l : List JoinEvent) (c : Nat) (call : JoinCall)
    (hcall : (run (Joins.step C) (unasked i) l).calls[c]? = some call) :
    (call.opened = true → call.elsewhere = false →
      ∃ n, (run (Joins.step C) (unasked i) l).LetIn C c call n) ∧
    (call.point = .returned (.ok ()) → call.opened = true ∧
      ∃ E clock, call.folded = some E ∧ Vouched C.toPrimitives clock call.cfg E call.id) := by
  have hinv : (run (Joins.step C) (unasked i) l).Inv C :=
    run_invariant (fun s ev _ hs => hs.step ev) (inv_unasked i)
  have hok := hinv.calls c call hcall
  refine ⟨fun hopened helse => hinv.letIn hcall (hok.accepted helse (Or.inl hopened)),
    fun hpoint => ⟨hok.inside (by rw [hpoint]; rfl), hok.joined hpoint⟩⟩

namespace Sample

open JoinHost.Sample

/-- Device 3 dials the originator with a Peer's code, and is let in. -/
def dialsIn : List JoinEvent :=
  [.dial (key 3) ⟨"laptop", .peer, nonce 5⟩ config false, .joiner 0 {}, .accept 0, .host (.go 0 {}),
    .host (.go 0 { verified := some ⟨key 9, ["Dog", "Key"]⟩ }), .joiner 0 { sas := ["Dog", "Key"] },
    .joiner 0 {}, .host (.go 0 { req := some ⟨"", .controller, nonce 9⟩ })] ++
    List.replicate 3 (.host (.go 0 {})) ++
    .host (.start (.decide (.called hex3 true true))) :: List.replicate 3 (.host (.go 1 {})) ++
    List.replicate 4 (.host (.go 0 {})) ++ List.replicate 3 (.joiner 0 {}) ++
    [.joiner 0 { doc := some [] }, .joiner 0 { doc := some joined, clock := 100 }]

/-- What has happened then. -/
def dialedIn : Joins := run (Joins.step .plain) (unasked approver) dialsIn

end Sample

theorem joined_approved_sample :
    ∃ call, Sample.dialedIn.calls[0]? = some call ∧ call.point = .returned (.ok ()) ∧
      (∃ n, Sample.dialedIn.LetIn .plain 0 call n) ∧ call.opened = true ∧
      ∃ E clock, call.folded = some E ∧ Vouched .plain clock call.cfg E call.id := by
  have hrun : Sample.dialedIn.calls[0]?.map (fun call =>
      (call.point, call.opened, call.elsewhere, call.folded)) =
        some (.returned (.ok ()), true, false, some Sample.joined) := by decide +kernel
  obtain ⟨call, hcall, hrest⟩ := Option.map_eq_some_iff.mp hrun
  simp only [Prod.mk.injEq] at hrest
  obtain ⟨hpoint, hopened, helse, -⟩ := hrest
  have hsound := joined_approved .plain JoinHost.Sample.approver Sample.dialsIn 0 call hcall
  exact ⟨call, hcall, hpoint, hsound.1 hopened helse, hsound.2 hpoint⟩

end Nullgate
