import CowboyPoker.ServerCore.Deliveries
import CowboyPoker.GameServer.GhostPlayers
import CowboyPoker.GameServer.WorkerThreads

/-!
# Leave notices

What the clients are told of departures when any number of workers run beside the main loop.

* `LeaveLaw` — what a run has removed and announced: no context is removed twice or filed again, a
  departure is announced to an address at most once and after the removal, and every client that was
  there at the removal and is still there has been told, unless the announcement is left to the
  iteration of the main loop in progress.
* `LeaveInv`, `leaveInv_step` — the invariant on the two threads, and the step lemma.
* `departures_announced` — the law, for the threads of the whole server.
-/

namespace CowboyPoker.GameServer

open CowboyPoker.Found
open CowboyPoker.ServerCore
open UdpService

variable {ρ : Type} {B : Backend ρ}

/-- The context that was removed. -/
def Observation.removal : Observation → Option UdpClientContextRef
  | removed r => some r
  | _ => none

/-- The departure that a datagram announces, and the address that it goes to. -/
def Observation.notice : Observation → Option (SockAddrIn × UInt64)
  | sent destAddr (.lobbyPlayerLeave playerId) => some (destAddr, playerId)
  | _ => none

/-- What was removed and announced, as `obs` shows it, when the registry is `s` and the ids in `owed` are
left to announce. -/
structure LeaveLaw (s : UdpService) (owed : List UInt64) (obs : List Observation) : Prop where
  /-- No context is removed twice. -/
  removedOnce : (obs.filterMap Observation.removal).Nodup
  /-- The id of a removed context is not filed again. -/
  gone : ∀ r, .removed r ∈ obs → s.idMap.lookup (s.heap r).sessionId = none
  /-- A departure is announced to an address at most once. -/
  toldOnce : (obs.filterMap Observation.notice).Nodup
  /-- A departure is announced after a removal. -/
  after : ∀ destAddr id, .sent destAddr (.lobbyPlayerLeave id) ∈ obs → ∃ r : ℕ,
    (s.heap r).sessionId = id ∧ [.removed r, .sent destAddr (.lobbyPlayerLeave id)].Sublist obs
  /-- Every client that is registered now and was accepted before the removal has been told after it. -/
  told : ∀ c r : ℕ, s.Registered c → [.accepted c, .removed r].Sublist obs →
    (s.heap r).sessionId ∉ owed →
      [.accepted c, .removed r,
        .sent (s.heap c).addr (.lobbyPlayerLeave (s.heap r).sessionId)].Sublist obs

/-- A notice is a sent `S_LOBBY_PLAYER_LEAVE`. -/
theorem Observation.notice_eq_some_iff {x : Observation} {destAddr : SockAddrIn} {id : UInt64} :
    x.notice = some (destAddr, id) ↔ x = .sent destAddr (.lobbyPlayerLeave id) := by
  constructor
  · intro h
    unfold Observation.notice at h
    split at h
    · cases h
      rfl
    · cases h
  · rintro rfl
    rfl

/-! ## What is seen of a step -/

/-- What ends in `b` and is found in two lists one after the other is found in the first, if `b` is not
in the second. -/
theorem sublist_of_sublist_append {α : Type} {l as bs : List α} {b : α}
    (h : (l ++ [b]).Sublist (as ++ bs)) (hb : b ∉ bs) : (l ++ [b]).Sublist as := by
  obtain ⟨l₁, l₂, heq, has, hbs⟩ := List.sublist_append_iff.mp h
  rcases List.eq_nil_or_concat l₂ with rfl | ⟨l₃, c, rfl⟩
  · rw [List.append_nil] at heq
    rwa [heq]
  · rw [List.concat_eq_append] at heq hbs
    rw [← List.append_assoc] at heq
    cases List.append_inj_right' heq rfl
    exact absurd (hbs.subset (List.mem_append_right _ List.mem_cons_self)) hb

/-- What is seen of a step: the call of `OnRecvPacket`, if it is one, and what the step shows. -/
theorem exists_observations (t : Entry (Threads ρ) Action Shown) :
    ∃ handling, threadsObservations t = observations handling t.output := by
  unfold threadsObservations
  split
  · exact ⟨_, rfl⟩
  · exact ⟨none, rfl⟩

/-- The observations `o` tell of no removal and no departure. -/
def NoDeparture (o : List Observation) : Prop := ∀ x ∈ o, x.removal = none ∧ x.notice = none

/-- What is seen of a handler's sends. -/
theorem noDeparture_sent {requests : List (SockAddrIn × ServerPacket)}
    (h : ∀ x ∈ requests, ∀ id, x.2 ≠ .lobbyPlayerLeave id) :
    NoDeparture (requests.map fun x => .sent x.1 x.2) := by
  intro x hx
  obtain ⟨⟨addr, packet⟩, hmem, rfl⟩ := List.mem_map.mp hx
  refine ⟨rfl, ?_⟩
  cases packet with
  | lobbyPlayerLeave id => exact absurd rfl (h _ hmem id)
  | _ => rfl

/-- A handshake tells of no departure. -/
theorem noDeparture_accepted (r : UdpClientContextRef) : NoDeparture [.accepted r] := by
  intro x hx
  cases List.mem_singleton.mp hx
  exact ⟨rfl, rfl⟩

/-- What is told of a departure: the addresses of the registered clients, with the id. -/
theorem notices_onClientLeave (s : UdpService) (id : UInt64) :
    ((onClientLeave s id).map fun x => .sent x.1 x.2).filterMap Observation.notice =
      s.broadcast id := by
  unfold onClientLeave broadcast
  rw [List.map_map, List.filterMap_map]
  exact congrFun List.filterMap_eq_map _

/-- `OnClientLeave` sends to every client that is filed, and to nobody else. -/
theorem mem_onClientLeave_iff {s : UdpService} {id : UInt64} {x : Observation} :
    x ∈ (onClientLeave s id).map (fun x => .sent x.1 x.2) ↔
      ∃ id' r, s.idMap.lookup id' = some r ∧ x = .sent (s.heap r).addr (.lobbyPlayerLeave id) := by
  unfold onClientLeave
  rw [List.mem_map]
  constructor
  · rintro ⟨y, hy, rfl⟩
    obtain ⟨id', r, hr, rfl⟩ := mem_broadcast_iff.mp hy
    exact ⟨id', r, hr, rfl⟩
  · rintro ⟨id', r, hr, rfl⟩
    exact ⟨_, mem_broadcast_iff.mpr ⟨id', r, hr, rfl⟩, rfl⟩

/-- A departure is announced once to an address. -/
theorem nodup_broadcast {s : UdpService} (h : s.Consistent) (id : UInt64) : (s.broadcast id).Nodup := by
  apply List.Nodup.of_map Prod.fst
  rw [List.nodup_iff_count_eq_one]
  intro addr haddr
  obtain ⟨x, hx, rfl⟩ := List.mem_map.mp haddr
  obtain ⟨r, hr, heq⟩ := (h.sentOnceTo_broadcast id).only x hx
  rw [heq]
  exact (h.sentOnceTo_broadcast id).once r hr

/-! ## The registry -/

/-- In `s'` the contexts of `s` have the ids and addresses that they had, and are filed as before. -/
structure KeepsFiled (s s' : UdpService) : Prop where
  next : s.next ≤ s'.next
  attrs : ∀ r : ℕ, r < s.next →
    (s'.heap r).sessionId = (s.heap r).sessionId ∧ (s'.heap r).addr = (s.heap r).addr
  lookup : ∀ r : ℕ, r < s.next →
    s'.idMap.lookup (s.heap r).sessionId = s.idMap.lookup (s.heap r).sessionId

namespace KeepsFiled

variable {s s' : UdpService} {r : ℕ}

/-- What is filed is kept where nothing happens. -/
theorem refl (s : UdpService) : KeepsFiled s s := ⟨le_rfl, fun _ _ => ⟨rfl, rfl⟩, fun _ _ => rfl⟩

/-- An assignment that keeps the id and the address. -/
theorem modifyCtx {f : UdpClientContext → UdpClientContext}
    (hid : (f (s.heap r)).sessionId = (s.heap r).sessionId)
    (haddr : (f (s.heap r)).addr = (s.heap r).addr) : KeepsFiled s (s.modifyCtx r f) := by
  refine ⟨le_rfl, fun r' _ => ?_, fun _ _ => rfl⟩
  by_cases heq : r' = r
  · subst heq
    rw [modifyCtx_heap_self]
    exact ⟨hid, haddr⟩
  · rw [modifyCtx_heap_of_ne heq]
    exact ⟨rfl, rfl⟩

/-- A registration. -/
theorem registerClient (h : s.Consistent) (addr : SockAddrIn) (now : ℤ)
    (hbound : (s.registerClient addr now).2.next < 2 ^ 64) :
    KeepsFiled s (s.registerClient addr now).2 :=
  ⟨next_le_registerClient s addr now, fun _ hr => registerClient_attrs addr now hr,
    fun _ hr => h.lookup_registerClient_of_issued hbound hr⟩

/-- Who was there before is registered as before. -/
theorem registered_iff (h : KeepsFiled s s') (hr : r < s.next) : s'.Registered r ↔ s.Registered r := by
  unfold Registered
  rw [(h.attrs r hr).1, h.lookup r hr]

end KeepsFiled

/-! ## The invariant -/

/-- What is known of the departures in `obs` when the process is in `s`. -/
structure LeaveInv (obs : List Observation) (s : Threads ρ) : Prop where
  /-- The registry is consistent. -/
  consistent : s.service.Consistent
  /-- Handlers announce no departure. -/
  requests : ∀ q ∈ s.receiver.requests, ∀ id, q.packet ≠ .lobbyPlayerLeave id
  /-- No id is collected twice. -/
  owedOnce : s.main.owed.Nodup
  /-- What is left to remove is left to announce. -/
  pending : s.main.pending.Sublist s.main.owed
  /-- What is left to remove is still filed. -/
  filed : ∀ id ∈ s.main.pending, ∃ r, s.service.idMap.lookup id = some r
  /-- What is left to announce and not left to remove has been removed. -/
  owed : ∀ id ∈ s.main.owed,
    id ∈ s.main.pending ∨ ∃ r : ℕ, .removed r ∈ obs ∧ (s.service.heap r).sessionId = id
  /-- Contexts that were seen have been created. -/
  accepted : ∀ r : ℕ, .accepted r ∈ obs → r < s.service.next
  removed : ∀ r : ℕ, .removed r ∈ obs → r < s.service.next
  /-- What was announced is not left to announce. -/
  announced : ∀ destAddr id, .sent destAddr (.lobbyPlayerLeave id) ∈ obs → id ∉ s.main.owed
  /-- The law. -/
  law : LeaveLaw s.service s.main.owed obs

/-- At the start nothing has been removed and nothing announced. -/
theorem leaveInv_init (rc : RedisClient ρ) (clock : ℤ) : LeaveInv [] (.init rc clock : Threads ρ) where
  consistent := consistent_init
  requests _ h := absurd h List.not_mem_nil
  owedOnce := List.nodup_nil
  pending := List.Sublist.refl _
  filed _ h := absurd h List.not_mem_nil
  owed _ h := absurd h List.not_mem_nil
  accepted _ h := absurd h List.not_mem_nil
  removed _ h := absurd h List.not_mem_nil
  announced _ _ h := absurd h List.not_mem_nil
  law := by
    refine ⟨List.nodup_nil, fun _ h => ?_, List.nodup_nil, fun _ _ h => ?_, fun c r _ h _ => ?_⟩
    · exact absurd h List.not_mem_nil
    · exact absurd h List.not_mem_nil
    · exact absurd (List.sublist_nil.mp h) (List.cons_ne_nil _ _)

/-- Such observations show no removal and no announcement. -/
theorem NoDeparture.filterMap {o : List Observation} (h : NoDeparture o) :
    o.filterMap Observation.removal = [] ∧ o.filterMap Observation.notice = [] :=
  ⟨List.filterMap_eq_nil_iff.mpr fun x hx => (h x hx).1,
    List.filterMap_eq_nil_iff.mpr fun x hx => (h x hx).2⟩

/-- Such observations show no removal. -/
theorem NoDeparture.removed_notMem {o : List Observation} (h : NoDeparture o) (r : UdpClientContextRef) :
    .removed r ∉ o := by
  intro hr
  cases (h _ hr).1

/-- Such observations show no `S_LOBBY_PLAYER_LEAVE`. -/
theorem NoDeparture.left_notMem {o : List Observation} (h : NoDeparture o) (destAddr : SockAddrIn)
    (id : UInt64) : .sent destAddr (.lobbyPlayerLeave id) ∉ o := by
  intro hr
  cases (h _ hr).2

/-- The law says nothing of such observations, and of a registry in which more is filed. -/
theorem LeaveLaw.noDeparture {s s' : UdpService} {owed : List UInt64} {obs o : List Observation}
    (h : LeaveLaw s owed obs) (hkeeps : KeepsFiled s s') (ho : NoDeparture o)
    (haccepted : ∀ r : ℕ, .accepted r ∈ obs → r < s.next)
    (hremoved : ∀ r : ℕ, .removed r ∈ obs → r < s.next) : LeaveLaw s' owed (obs ++ o) := by
  have hobs : ∀ {x}, x ∈ obs ++ o → x ∉ o → x ∈ obs := by
    intro x hx hnot
    exact (List.mem_append.mp hx).resolve_right hnot
  constructor
  · rw [List.filterMap_append, ho.filterMap.1, List.append_nil]
    exact h.removedOnce
  · intro r hr
    have hr := hobs hr (ho.removed_notMem r)
    have hlt := hremoved r hr
    rw [(hkeeps.attrs r hlt).1, hkeeps.lookup r hlt]
    exact h.gone r hr
  · rw [List.filterMap_append, ho.filterMap.2, List.append_nil]
    exact h.toldOnce
  · intro destAddr id hleft
    obtain ⟨r, hid, hsub⟩ := h.after destAddr id (hobs hleft (ho.left_notMem destAddr id))
    refine ⟨r, ?_, hsub.trans (List.sublist_append_left obs o)⟩
    rw [(hkeeps.attrs r (hremoved r (hsub.subset List.mem_cons_self))).1]
    exact hid
  · intro c r hc hsub hid
    have hsub : [.accepted c, .removed r].Sublist obs :=
      sublist_of_sublist_append (l := [_]) hsub (ho.removed_notMem r)
    have hclt := haccepted c (hsub.subset List.mem_cons_self)
    have hrlt := hremoved r (hsub.subset (List.mem_cons_of_mem _ List.mem_cons_self))
    rw [(hkeeps.attrs r hrlt).1] at hid ⊢
    rw [(hkeeps.attrs c hclt).2]
    exact (h.told c r ((hkeeps.registered_iff hclt).mp hc) hsub hid).trans
      (List.sublist_append_left obs o)

namespace LeaveInv

variable {obs o : List Observation} {s s' : Threads ρ}

/-- A step of the receiving thread. -/
theorem receive (h : LeaveInv obs s) (hconsistent : s'.service.Consistent)
    (hrequests : ∀ q ∈ s'.receiver.requests, ∀ id, q.packet ≠ .lobbyPlayerLeave id)
    (hmain : s'.main = s.main) (hkeeps : KeepsFiled s.service s'.service) (ho : NoDeparture o)
    (haccepted : ∀ r : ℕ, .accepted r ∈ o → r < s'.service.next) : LeaveInv (obs ++ o) s' := by
  have hremoved : ∀ r : ℕ, .removed r ∈ obs ++ o → .removed r ∈ obs := fun r hr =>
    (List.mem_append.mp hr).resolve_right (ho.removed_notMem r)
  constructor
  · exact hconsistent
  · exact hrequests
  · rw [hmain]
    exact h.owedOnce
  · rw [hmain]
    exact h.pending
  · intro id hid
    rw [hmain] at hid
    obtain ⟨r, hr⟩ := h.filed id hid
    refine ⟨r, ?_⟩
    have hsession := h.consistent.sessionId_eq hr
    rw [← hsession, hkeeps.lookup r (h.consistent.allocated r (h.consistent.registered_of_idMap hr)),
      hsession]
    exact hr
  · intro id hid
    rw [hmain] at hid ⊢
    rcases h.owed id hid with hpending | ⟨r, hr, hsession⟩
    · exact .inl hpending
    · refine .inr ⟨r, List.mem_append_left o hr, ?_⟩
      rw [(hkeeps.attrs r (h.removed r hr)).1]
      exact hsession
  · intro r hr
    rcases List.mem_append.mp hr with hr | hr
    · exact (h.accepted r hr).trans_le hkeeps.next
    · exact haccepted r hr
  · intro r hr
    exact (h.removed r (hremoved r hr)).trans_le hkeeps.next
  · intro destAddr id hleft
    rw [hmain]
    exact h.announced destAddr id
      ((List.mem_append.mp hleft).resolve_right (ho.left_notMem destAddr id))
  · rw [hmain]
    exact h.law.noDeparture hkeeps ho h.accepted h.removed

/-- That `OnRecvPacket` is called tells of no departure. -/
theorem call (h : LeaveInv obs s) (handling : Option (SockAddrIn × Bytes)) :
    LeaveInv (obs ++ handling.toList.map fun x => .handling x.1 x.2) s := by
  refine h.receive h.consistent h.requests rfl (.refl _) ?_ ?_
  · intro x hx
    obtain ⟨y, -, rfl⟩ := List.mem_map.mp hx
    exact ⟨rfl, rfl⟩
  · intro r hr
    obtain ⟨y, -, heq⟩ := List.mem_map.mp hr
    cases heq

/-- A handler keeps the context that it is given registered as it was, and requests no departure. -/
theorem dispatch (h : LeaveInv obs s) {r : ℕ} {user : Bytes} {relays : Prop} {now : ℤ}
    {out : HandlerOut ρ} (hhandled : Handled B user relays now (s.service.heap r) s.redis out) :
    LeaveInv obs { s with
      service := s.service.modifyCtx r fun _ => out.ctx
      redis := out.redis
      receiver := .sending out.requests out.fault } := by
  rw [← List.append_nil obs]
  refine h.receive (Consistent.modifyCtx (r := r) (f := fun _ => out.ctx) h.consistent
      hhandled.sessionId hhandled.addr)
    (fun q hq => packet_ne_lobbyPlayerLeave (hhandled.requests q hq)) rfl
    (KeepsFiled.modifyCtx (r := r) (f := fun _ => out.ctx) hhandled.sessionId hhandled.addr) ?_ ?_
  · exact fun _ hx => absurd hx List.not_mem_nil
  · exact fun _ hr => absurd hr List.not_mem_nil

/-- A step of the main thread that collects, removes and announces nothing. -/
theorem rest (h : LeaveInv obs s) {main : MainThread} (howed : main.owed = s.main.owed)
    (hpending : main.pending = s.main.pending) : LeaveInv obs { s with main } := by
  constructor
  · exact h.consistent
  · exact h.requests
  · exact howed ▸ h.owedOnce
  · exact howed ▸ hpending ▸ h.pending
  · exact hpending ▸ h.filed
  · exact howed ▸ hpending ▸ h.owed
  · exact h.accepted
  · exact h.removed
  · exact howed ▸ h.announced
  · exact howed ▸ h.law

/-- `Tick` collects ids that are filed. -/
theorem scan (h : LeaveInv obs s) (now : ℤ) (howed : s.main.owed = []) :
    LeaveInv obs { s with
      main := .removing (s.service.expired now) (s.service.expired now) } := by
  have hfiled : ∀ id ∈ s.service.expired now, ∃ r, s.service.idMap.lookup id = some r := by
    intro id hid
    obtain ⟨r, hr, -⟩ := mem_expired_iff.mp hid
    exact ⟨r, hr⟩
  constructor
  · exact h.consistent
  · exact h.requests
  · exact nodup_expired s.service now
  · exact List.Sublist.refl _
  · exact hfiled
  · exact fun id hid => .inl hid
  · exact h.accepted
  · exact h.removed
  · intro destAddr id hleft hid
    obtain ⟨r, hsession, hsub⟩ := h.law.after destAddr id hleft
    have hgone := h.law.gone r (hsub.subset List.mem_cons_self)
    obtain ⟨r', hr'⟩ := hfiled id hid
    rw [hsession, hr'] at hgone
    cases hgone
  · refine ⟨h.law.removedOnce, h.law.gone, h.law.toldOnce, h.law.after, fun c r hc hsub _ => ?_⟩
    refine h.law.told c r hc hsub ?_
    rw [howed]
    exact List.not_mem_nil

/-- `Tick` removes an id. -/
theorem remove (h : LeaveInv obs s) {id : UInt64} {todo expired : List UInt64} {r : ℕ}
    (hmain : s.main = .removing (id :: todo) expired) (hr : s.service.idMap.lookup id = some r) :
    LeaveInv (obs ++ [.removed r]) { s with
      service := s.service.removeClient id
      main := .removing todo expired } := by
  have howed : s.main.owed = expired := congrArg MainThread.owed hmain
  have hpending : s.main.pending = id :: todo := congrArg MainThread.pending hmain
  obtain ⟨hheap, hnext, -⟩ := removeClient_frame s.service id
  have hsession := h.consistent.sessionId_eq hr
  have hlt := h.consistent.allocated r (h.consistent.registered_of_idMap hr)
  have hsub := h.pending
  rw [howed, hpending] at hsub
  have hnodup : (id :: todo).Nodup := hsub.nodup (howed ▸ h.owedOnce)
  rw [List.nodup_cons] at hnodup
  have hid : id ∈ expired := hsub.subset List.mem_cons_self
  have hkeep : ∀ {x : Observation}, x ≠ .removed r → x ∈ obs ++ [.removed r] → x ∈ obs := by
    intro x hne hx
    exact (List.mem_append.mp hx).resolve_right fun hx => hne (List.mem_singleton.mp hx)
  constructor
  · exact h.consistent.removeClient id
  · exact h.requests
  · exact howed ▸ h.owedOnce
  · exact (List.sublist_cons_self id todo).trans hsub
  · intro id' hid'
    obtain ⟨r', hr'⟩ := h.filed id' (hpending ▸ List.mem_cons_of_mem id hid')
    refine ⟨r', lookup_removeClient_eq_some_iff.mpr ⟨hr', ?_⟩⟩
    rintro rfl
    exact hnodup.1 hid'
  · intro id' hid'
    rcases h.owed id' (howed ▸ hid') with hmem | ⟨r', hr', hsession'⟩
    · rw [hpending, List.mem_cons] at hmem
      rcases hmem with rfl | hmem
      · refine .inr ⟨r, List.mem_append_right _ List.mem_cons_self, ?_⟩
        rw [hheap]
        exact hsession
      · exact .inl hmem
    · refine .inr ⟨r', List.mem_append_left _ hr', ?_⟩
      rw [hheap]
      exact hsession'
  · intro r' hr'
    rw [hnext]
    exact h.accepted r' (hkeep (fun heq => by cases heq) hr')
  · intro r' hr'
    rw [hnext]
    rcases List.mem_append.mp hr' with hr' | hr'
    · exact h.removed r' hr'
    · cases List.mem_singleton.mp hr'
      exact hlt
  · intro destAddr id' hleft
    exact howed ▸ h.announced destAddr id' (hkeep (fun heq => by cases heq) hleft)
  · refine ⟨?_, ?_, ?_, ?_, ?_⟩
    · rw [List.filterMap_append]
      refine List.nodup_append.mpr ⟨h.law.removedOnce, List.nodup_singleton r, ?_⟩
      rintro r' hr' _ hmem rfl
      cases List.mem_singleton.mp hmem
      obtain ⟨x, hx, hremoval⟩ := List.mem_filterMap.mp hr'
      cases x with
      | removed r' =>
          cases hremoval
          have hgone := h.law.gone r hx
          rw [hsession, hr] at hgone
          cases hgone
      | _ => cases hremoval
    · intro r' hr'
      rw [hheap]
      rcases List.mem_append.mp hr' with hr' | hr'
      · refine Option.eq_none_iff_forall_ne_some.mpr fun r'' hlook => ?_
        have hgone := h.law.gone r' hr'
        rw [lookup_of_lookup_removeClient hlook] at hgone
        cases hgone
      · cases List.mem_singleton.mp hr'
        rw [hsession]
        exact lookup_removeClient_self s.service id
    · rw [List.filterMap_append]
      exact (List.append_nil _).symm ▸ h.law.toldOnce
    · intro destAddr id' hleft
      obtain ⟨r', hsession', hsub'⟩ :=
        h.law.after destAddr id' (hkeep (fun heq => by cases heq) hleft)
      refine ⟨r', ?_, hsub'.trans (List.sublist_append_left _ _)⟩
      rw [hheap]
      exact hsession'
    · intro c r' hc hsub' hnot
      rw [registered_removeClient_iff] at hc
      rw [hheap] at hnot ⊢
      have hne : r' ≠ r := by
        rintro rfl
        rw [hsession] at hnot
        exact hnot hid
      have hsub' : [.accepted c, .removed r'].Sublist obs := by
        apply sublist_of_sublist_append (l := [_]) hsub'
        simp [hne]
      exact (h.law.told c r' hc.1 hsub' (howed ▸ hnot)).trans (List.sublist_append_left _ _)

/-- The main thread announces a departure. -/
theorem announce (h : LeaveInv obs s) {id : UInt64} {todo : List UInt64}
    (hmain : s.main = .leaving (id :: todo)) :
    LeaveInv (obs ++ (onClientLeave s.service id).map fun x => .sent x.1 x.2)
      { s with main := .leaving todo } := by
  have howed : s.main.owed = id :: todo := congrArg MainThread.owed hmain
  have hpending : s.main.pending = [] := congrArg MainThread.pending hmain
  have hnodup := h.owedOnce
  rw [howed, List.nodup_cons] at hnodup
  obtain ⟨r₀, hr₀, hsession⟩ : ∃ r : ℕ, .removed r ∈ obs ∧ (s.service.heap r).sessionId = id := by
    refine (h.owed id (howed ▸ List.mem_cons_self)).resolve_left ?_
    rw [hpending]
    exact List.not_mem_nil
  have hsent : ∀ x ∈ obs ++ (onClientLeave s.service id).map (fun x => .sent x.1 x.2),
      (∀ destAddr, x ≠ .sent destAddr (.lobbyPlayerLeave id)) → x ∈ obs := by
    intro x hx hne
    refine (List.mem_append.mp hx).resolve_right fun hx => ?_
    obtain ⟨id', r, -, rfl⟩ := mem_onClientLeave_iff.mp hx
    exact hne _ rfl
  constructor
  · exact h.consistent
  · exact h.requests
  · exact hnodup.2
  · exact List.nil_sublist todo
  · exact fun _ hid => absurd hid List.not_mem_nil
  · intro id' hid'
    rcases h.owed id' (howed ▸ List.mem_cons_of_mem id hid') with hmem' | ⟨r, hr, hid⟩
    · rw [hpending] at hmem'
      exact absurd hmem' List.not_mem_nil
    · exact .inr ⟨r, List.mem_append_left _ hr, hid⟩
  · exact fun r hr => h.accepted r (hsent _ hr fun _ heq => by cases heq)
  · exact fun r hr => h.removed r (hsent _ hr fun _ heq => by cases heq)
  · intro destAddr id' hleft hid'
    by_cases hid : id' = id
    · subst hid
      exact hnodup.1 hid'
    · have hleft := hsent _ hleft fun _ heq => by
        cases heq
        exact hid rfl
      exact h.announced destAddr id' hleft (howed ▸ List.mem_cons_of_mem id hid')
  · refine ⟨?_, ?_, ?_, ?_, ?_⟩
    · rw [List.filterMap_append]
      have hnone : ((onClientLeave s.service id).map fun x => .sent x.1 x.2).filterMap
          Observation.removal = [] := by
        rw [List.filterMap_eq_nil_iff]
        intro x hx
        obtain ⟨id', r, -, rfl⟩ := mem_onClientLeave_iff.mp hx
        rfl
      rw [hnone, List.append_nil]
      exact h.law.removedOnce
    · exact fun r hr => h.law.gone r (hsent _ hr fun _ heq => by cases heq)
    · rw [List.filterMap_append, notices_onClientLeave]
      refine List.nodup_append.mpr ⟨h.law.toldOnce, nodup_broadcast h.consistent id, ?_⟩
      rintro y hleft _ hy rfl
      obtain ⟨id', r, -, rfl⟩ := mem_broadcast_iff.mp hy
      obtain ⟨x, hx, hnotice⟩ := List.mem_filterMap.mp hleft
      rw [Observation.notice_eq_some_iff] at hnotice
      subst hnotice
      exact h.announced _ id hx (howed ▸ List.mem_cons_self)
    · intro destAddr id' hleft
      by_cases hid : id' = id
      · subst hid
        have hleft := (List.mem_append.mp hleft).resolve_left fun hleft =>
          h.announced destAddr id' hleft (howed ▸ List.mem_cons_self)
        exact ⟨r₀, hsession,
          (List.singleton_sublist.mpr hr₀).append (List.singleton_sublist.mpr hleft)⟩
      · have hleft := hsent _ hleft fun _ heq => by
          cases heq
          exact hid rfl
        obtain ⟨r, hr, hsub⟩ := h.law.after destAddr id' hleft
        exact ⟨r, hr, hsub.trans (List.sublist_append_left _ _)⟩
    · intro c r hc hsub hnot
      have hsub : [.accepted c, .removed r].Sublist obs := by
        apply sublist_of_sublist_append (l := [_]) hsub
        intro hr
        obtain ⟨id', r', -, heq⟩ := mem_onClientLeave_iff.mp hr
        cases heq
      by_cases hid : (s.service.heap r).sessionId = id
      · rw [hid]
        have htold : Observation.sent (s.service.heap c).addr (.lobbyPlayerLeave id) ∈
            (onClientLeave s.service id).map fun x => .sent x.1 x.2 :=
          mem_onClientLeave_iff.mpr ⟨_, c, hc, rfl⟩
        exact hsub.append (List.singleton_sublist.mpr htold)
      · refine (h.law.told c r hc hsub ?_).trans (List.sublist_append_left _ _)
        rw [howed, List.mem_cons]
        exact not_or.mpr ⟨hid, hnot⟩

end LeaveInv

/-- The context that was looked up for a datagram has been created. -/
def Threads.FoundCreated (s : Threads ρ) : Prop :=
  ∀ d, ∀ r : ℕ, s.receiver = .found d r → r < s.service.next

/-- The main loop leaves the receiving thread and the contexts that were created alone. -/
theorem mainStep_frame (s : Threads ρ) : s.mainStep.1.receiver = s.receiver ∧
    s.mainStep.1.service.next = s.service.next := by
  unfold Threads.mainStep
  split
  · exact ⟨rfl, rfl⟩
  · exact ⟨rfl, rfl⟩
  · exact ⟨rfl, (removeClient_frame _ _).2.1⟩
  · exact ⟨rfl, rfl⟩
  · exact ⟨rfl, rfl⟩
  · exact ⟨rfl, rfl⟩

/-- The receiving thread looks up a context that has been created. -/
theorem foundCreated_receiverStep {s : Threads ρ} (hconsistent : s.service.Consistent)
    (hbound : (s.receiverStep B).1.service.next < 2 ^ 64) : (s.receiverStep B).1.FoundCreated := by
  intro d r
  revert hbound
  unfold Threads.receiverStep
  rcases hrecv : s.receiver with _ | d' | ⟨d', r'⟩ | ⟨d', r'⟩ | ⟨_ | ⟨q, requests⟩, fault⟩
  · intro _ hfound
    dsimp only at hfound
    rw [hrecv] at hfound
    cases hfound
  · dsimp only
    by_cases hlen : d'.data.length < udpPacketHeaderSize
    · rw [if_pos hlen]
      intro _ hfound
      cases hfound
    rw [if_neg hlen]
    by_cases hid : d'.header.sessionId = 0
    · simp only [lookup, if_pos hid]
      intro hbound hfound
      have hnext := hconsistent.registerClient d'.senderAddr s.clock hbound
      cases hfound
      exact hnext.allocated _ (hnext.registered_of_addrMap registerClient_addrMap)
    · simp only [lookup, if_neg hid]
      rcases hfind : s.service.findByAddr d'.senderAddr with _ | r'
      · intro _ hfound
        cases hfound
      · intro _ hfound
        cases hfound
        obtain ⟨hlook, -⟩ := findByAddr_eq_some_iff.mp hfind
        exact hconsistent.allocated r (hconsistent.registered_of_addrMap hlook)
  · dsimp only
    rcases accept s.service r' d' s.clock with _ | service
    · intro _ hfound
      cases hfound
    · intro _ hfound
      cases hfound
  all_goals
    intro _ hfound
    cases hfound

/-- What was looked up stays created. -/
theorem foundCreated_step {s : Threads ρ} (h : s.FoundCreated) (hconsistent : s.service.Consistent)
    (a : Action) (hbound : (s.step B a).1.service.next < 2 ^ 64) : (s.step B a).1.FoundCreated := by
  intro d r hfound
  unfold Threads.step at hfound hbound ⊢
  by_cases hfault : s.fault.isSome
  · rw [if_pos hfault] at hfound ⊢
    exact h d r hfound
  rw [if_neg hfault] at hfound hbound ⊢
  cases a with
  | elapse ms => exact h d r hfound
  | arrive d' =>
      dsimp only at hfound hbound ⊢
      rcases hrecv : s.receiver with _ | _ | ⟨d₀, r₀⟩ | _ | _
      · rw [hrecv] at hfound
        cases hfound
      all_goals
        rw [hrecv] at hfound
        exact h d r hfound
  | main =>
      obtain ⟨hreceiver, hnext⟩ := mainStep_frame s
      dsimp only at hfound ⊢
      rw [hreceiver] at hfound
      rw [hnext]
      exact h d r hfound
  | receiver => exact foundCreated_receiverStep hconsistent hbound d r hfound

/-- **The step lemma.** -/
theorem leaveInv_step {obs : List Observation} {s : Threads ρ} {a : Action} (h : LeaveInv obs s)
    (hfound : s.FoundCreated) (hbound : (s.step B a).1.service.next < 2 ^ 64) :
    LeaveInv (obs ++ threadsObservations ((threads B).entry s a)) (s.step B a).1 := by
  obtain ⟨handling, hseen⟩ := exists_observations ((threads B).entry s a)
  rw [hseen]
  simp only [Transducer.entry, threads]
  have hcase := threadsCase B s a
  have h := h.call handling
  unfold observations
  simp only [← List.append_assoc]
  generalize obs ++ handling.toList.map (fun x => Observation.handling x.1 x.2) = obs at h
  generalize s.step B a = next at hcase hbound ⊢
  cases hcase with
  | quiet s' hservice _ hmain hrequests =>
      simp only [Option.toList_none, List.map_nil, List.append_nil]
      rw [← List.append_nil obs]
      refine h.receive (hservice ▸ h.consistent) (fun q hq => h.requests q (hrequests q hq)) hmain ?_
        (fun _ hx => absurd hx List.not_mem_nil) fun _ hr => absurd hr List.not_mem_nil
      rw [hservice]
      exact .refl _
  | registered d =>
      simp only [Option.toList_none, Option.toList_some, List.map_nil, List.map_cons, List.append_nil]
      have hconsistent := h.consistent.registerClient d.senderAddr s.clock hbound
      refine h.receive hconsistent (fun q hq => absurd hq List.not_mem_nil) rfl
        (.registerClient h.consistent _ _ hbound) (noDeparture_accepted _) fun r hr => ?_
      cases List.mem_singleton.mp hr
      exact hconsistent.allocated _ (hconsistent.registered_of_addrMap registerClient_addrMap)
  | accepted d r ha hrecv =>
      simp only [Option.toList_none, Option.toList_some, List.map_nil, List.map_cons, List.append_nil]
      refine h.receive (Consistent.modifyCtx (f := fun ctx => { ctx with
          lastSeq := d.header.sequence
          lastAliveMs := s.clock }) h.consistent rfl rfl) (fun q hq => absurd hq List.not_mem_nil) rfl
        (KeepsFiled.modifyCtx (f := fun ctx => { ctx with
          lastSeq := d.header.sequence
          lastAliveMs := s.clock }) rfl rfl) (noDeparture_accepted r) fun r' hr => ?_
      cases List.mem_singleton.mp hr
      exact hfound d r hrecv
  | dispatched d r =>
      simp only [Option.toList_none, List.map_nil, List.append_nil]
      exact h.dispatch (handled_handlePacket (B := B) d.data d.data.length)
  | sent q requests fault ha hrecv =>
      simp only [Option.toList_none, List.map_nil, List.append_nil]
      have hrequests : ∀ q' ∈ q :: requests, ∀ id, q'.packet ≠ .lobbyPlayerLeave id := by
        intro q' hq'
        apply h.requests
        rw [hrecv]
        exact hq'
      refine h.receive h.consistent
        (fun q' hq' => hrequests q' (List.mem_cons_of_mem _ hq')) rfl (.refl _)
        (noDeparture_sent fun x hx id => ?_) fun r hr => ?_
      · rw [snd_of_mem_perform hx]
        exact hrequests q List.mem_cons_self id
      · obtain ⟨x, -, heq⟩ := List.mem_map.mp hr
        cases heq
  | began hmain =>
      simp only [Option.toList_none, List.map_nil, List.append_nil]
      refine h.rest ?_ ?_
      · rw [hmain]
        rfl
      · rw [hmain]
        rfl
  | scanned now hmain =>
      simp only [Option.toList_none, List.map_nil, List.append_nil]
      apply h.scan now
      rw [hmain]
      rfl
  | removed id todo expired hmain =>
      obtain ⟨r, hr⟩ := h.filed id (by rw [hmain]; exact List.mem_cons_self)
      simp only [findById, hr, Option.toList_none, Option.toList_some, List.map_nil, List.map_cons,
        List.append_nil]
      exact h.remove hmain hr
  | returned expired hmain =>
      simp only [Option.toList_none, List.map_nil, List.append_nil]
      refine h.rest ?_ ?_
      · rw [hmain]
        rfl
      · rw [hmain]
        rfl
  | left id todo hmain =>
      simp only [Option.toList_none, List.map_nil, List.append_nil]
      exact h.announce hmain
  | rested hmain =>
      simp only [Option.toList_none, List.map_nil, List.append_nil]
      refine h.rest ?_ ?_
      · rw [hmain]
        rfl
      · rw [hmain]
        rfl

/-- **Departures are announced**, by any number of workers beside the main loop, while fewer than
`2 ^ 64` sessions have been registered. -/
theorem departures_announced {τ : Type} [DecidableEq τ] (B : Backend ρ) (main : τ)
    (redis : RedisClient ρ) (clock : ℤ) (events : List (τ × ThreadChoice))
    (hbound : ((serverThreads B τ).exec (serverInit main redis clock) events).shared.service.next <
      2 ^ 64) :
    let s := (serverThreads B τ).exec (serverInit main redis clock) events
    LeaveLaw s.shared.service (s.pc main).mainThread.owed
      (((serverThreads B τ).trace (serverInit main redis clock) events).flatMap
        serverObservations) := by
  intro s
  obtain ⟨actions, hsim, hshows⟩ := exists_simulates B main redis clock events
  obtain ⟨receiver, hexec, -⟩ := hsim.same
  have hinv : LeaveInv (((threads B).trace (.init redis clock) actions).flatMap threadsObservations)
      ((threads B).exec (.init redis clock) actions) ∧
      ((threads B).exec (.init redis clock) actions).FoundCreated := by
    refine (threads B).history_invariant
      (C := fun t => t.after.service.next < 2 ^ 64)
      (J := fun h s => LeaveInv (h.flatMap threadsObservations) s ∧ s.FoundCreated)
      ⟨leaveInv_init redis clock, fun _ _ h => by cases h⟩ ?_ actions ?_
    · rintro h s a ⟨hinv, hfound⟩ hlt
      rw [List.flatMap_append, List.flatMap_singleton]
      exact ⟨leaveInv_step hinv hfound hlt, foundCreated_step hfound hinv.consistent a hlt⟩
    · intro t ht
      have hnext := (threads B).after_le_exec_of_mem_trace (f := fun s => s.service.next)
        (next_le_threadsStep B) ht
      refine lt_of_le_of_lt hnext ?_
      rw [hexec]
      exact hbound
  rw [hexec, hshows] at hinv
  exact hinv.1.law

/-- Player `A` shakes hands, and after the timeout player `B`; then an iteration of the main loop removes
`A`. -/
def departureRun : List (Bool × ThreadChoice) :=
  startUp ++ serveBy knockA ++ (true, .elapse 10001) :: serveBy knockB ++
    List.replicate 6 (true, .next (.failed wsaIoPending))

/-- The law in a run with a departure. -/
theorem departures_announced_departureRun :
    let s := (serverThreads Backend.unreachable Bool).exec (serverInit true .disconnected 0) departureRun
    LeaveLaw s.shared.service (s.pc true).mainThread.owed
      (((serverThreads Backend.unreachable Bool).trace (serverInit true .disconnected 0)
        departureRun).flatMap serverObservations) :=
  departures_announced Backend.unreachable true .disconnected 0 departureRun (by decide +kernel)

/-- In that run player `B` is told that the session of player `A` is gone. -/
example : (((serverThreads Backend.unreachable Bool).trace (serverInit true .disconnected 0)
    departureRun).flatMap serverObservations).filterMap Observation.notice =
      [(knockB.senderAddr, 1)] := by
  decide +kernel

end CowboyPoker.GameServer
