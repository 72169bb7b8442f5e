import CowboyPoker.GameServer.TwoThreads

/-!
# Moves after departures

* `Haunts` — a client is told that a session has left, and later that it moves.
* `RelaysDeparted` — a step relays a move of a session that is no longer registered and whose
  departure has been announced. A handler keeps the context that was looked up for it, so this
  happens when the main thread removes the session in the meantime.
* `noGhosts_of_not_relaysDeparted` — along a run without such steps no client is haunted. The
  invariant is `Departures`.
-/

namespace CowboyPoker.GameServer

open CowboyPoker.Found
open CowboyPoker.ServerCore
open UdpService

variable {ρ : Type} {B : Backend ρ}

/-- The session whose move a packet relays. -/
def ServerPacket.mover : ServerPacket → Option UInt64
  | lobbyPlayerMove moverSessionId _ _ _ _ _ _ => some moverSessionId
  | _ => none

/-- The first datagram announces to a client the departure of a session, and the second relays a move
of that session to the client. -/
def Haunts (a b : SockAddrIn × ServerPacket) : Prop :=
  b.1 = a.1 ∧ ∃ id ∈ b.2.mover, a.2 = .lobbyPlayerLeave id

instance (a b : SockAddrIn × ServerPacket) : Decidable (Haunts a b) :=
  inferInstanceAs (Decidable (_ ∧ _))

/-- No client gets a move of a session after the departure of the session. -/
def NoGhosts (sent : List (SockAddrIn × ServerPacket)) : Prop :=
  sent.Pairwise fun a b => ¬ Haunts a b

instance (sent : List (SockAddrIn × ServerPacket)) : Decidable (NoGhosts sent) :=
  inferInstanceAs (Decidable (sent.Pairwise _))

/-- The session whose move the receiving thread is about to relay. -/
def Threads.relays (s : Threads ρ) : Option UInt64 :=
  s.receiver.requests.head?.bind fun q => q.packet.mover

/-- The step relays a move of a session that is not registered, and whose departure is not left to
announce. -/
def RelaysDeparted (t : Entry (Threads ρ) Action Shown) : Prop :=
  match t.input with
  | .receiver =>
      ∃ id ∈ t.before.relays, t.before.service.idMap.lookup id = none ∧ id ∉ t.before.main.owed
  | _ => False

instance : (t : Entry (Threads ρ) Action Shown) → Decidable (RelaysDeparted t)
  | ⟨s, .receiver, _, _⟩ => inferInstanceAs (Decidable
      (∃ id ∈ s.relays, s.service.idMap.lookup id = none ∧ id ∉ s.main.owed))
  | ⟨_, .main, _, _⟩ => inferInstanceAs (Decidable False)
  | ⟨_, .elapse _, _, _⟩ => inferInstanceAs (Decidable False)
  | ⟨_, .arrive _, _, _⟩ => inferInstanceAs (Decidable False)

/-! ## The invariant -/

/-- The id has been issued. -/
def Issued (s : UdpService) (id : UInt64) : Prop := ∃ r : ℕ, r < s.next ∧ (s.heap r).sessionId = id

/-- An assignment that keeps the ids keeps which have been issued. -/
theorem issued_modifyCtx {s : UdpService} {r : ℕ} {f : UdpClientContext → UdpClientContext}
    (hid : (f (s.heap r)).sessionId = (s.heap r).sessionId) {id : UInt64} (h : Issued s id) :
    Issued (s.modifyCtx r f) id := by
  obtain ⟨r', hlt, rfl⟩ := h
  refine ⟨r', hlt, ?_⟩
  by_cases heq : r' = r
  · subst heq
    rw [modifyCtx_heap_self, hid]
  · rw [modifyCtx_heap_of_ne heq]

/-- Ids stay issued. -/
theorem issued_registerClient {s : UdpService} (addr : SockAddrIn) (now : ℤ) {id : UInt64}
    (h : Issued s id) : Issued (s.registerClient addr now).2 id := by
  obtain ⟨r, hlt, rfl⟩ := h
  exact ⟨r, lt_of_lt_of_le hlt (next_le_registerClient s addr now),
    (registerClient_attrs addr now hlt).1⟩

theorem issued_removeClient {s : UdpService} (id' : UInt64) {id : UInt64} (h : Issued s id) :
    Issued (s.removeClient id') id := by
  obtain ⟨r, hlt, hr⟩ := h
  obtain ⟨hheap, hnext, -⟩ := removeClient_frame s id'
  refine ⟨r, ?_, ?_⟩
  · rwa [hnext]
  · rwa [hheap]

/-- What is known of the departures in `sent` when the process is in `s`. -/
structure Departures (sent : List (SockAddrIn × ServerPacket)) (s : Threads ρ) : Prop where
  /-- The registry is consistent. -/
  consistent : s.service.Consistent
  /-- Handlers announce no departure. -/
  requests : ∀ q ∈ s.receiver.requests, ∀ id, q.packet ≠ .lobbyPlayerLeave id
  /-- A departure is announced once. -/
  nodup : s.main.owed.Nodup
  /-- The ids of an iteration of the main loop have been issued, and are removed before they are
  announced. -/
  owed : ∀ id ∈ s.main.owed,
    Issued s.service id ∧ (id ∈ s.main.pending ∨ s.service.idMap.lookup id = none)
  /-- A session whose departure was announced has left for good. -/
  departed : ∀ x ∈ sent, ∀ id, x.2 = .lobbyPlayerLeave id →
    Issued s.service id ∧ s.service.idMap.lookup id = none ∧ id ∉ s.main.owed
  /-- No client has been haunted. -/
  noGhosts : NoGhosts sent

theorem departures_init (rc : RedisClient ρ) (clock : ℤ) :
    Departures [] (.init rc clock : Threads ρ) where
  consistent := consistent_init
  requests _ h := absurd h List.not_mem_nil
  nodup := List.nodup_nil
  owed _ h := absurd h List.not_mem_nil
  departed _ h := absurd h List.not_mem_nil
  noGhosts := List.Pairwise.nil

namespace Departures

variable {sent : List (SockAddrIn × ServerPacket)} {s s' : Threads ρ}

/-- A step of the receiving thread that changes the registry. Ids that have been issued are filed as
before. -/
theorem receive (h : Departures sent s) (hconsistent : s'.service.Consistent)
    (hrequests : ∀ q ∈ s'.receiver.requests, ∀ id, q.packet ≠ .lobbyPlayerLeave id)
    (hmain : s'.main = s.main) (hissued : ∀ id, Issued s.service id → Issued s'.service id)
    (hlook : ∀ id, Issued s.service id → s'.service.idMap.lookup id = s.service.idMap.lookup id) :
    Departures sent s' := by
  refine ⟨hconsistent, hrequests, ?_, ?_, ?_, h.noGhosts⟩
  · rw [hmain]
    exact h.nodup
  · intro id hid
    rw [hmain] at hid ⊢
    obtain ⟨hiss, hcase⟩ := h.owed id hid
    rw [hlook id hiss]
    exact ⟨hissued id hiss, hcase⟩
  · intro x hx id hleave
    obtain ⟨hiss, hnone, howed⟩ := h.departed x hx id hleave
    rw [hlook id hiss, hmain]
    exact ⟨hissued id hiss, hnone, howed⟩

/-- A step of the main thread that sends nothing. -/
theorem work (h : Departures sent s) (hconsistent : s'.service.Consistent)
    (hreceiver : s'.receiver = s.receiver) (hissued : ∀ id, Issued s.service id → Issued s'.service id)
    (hlook : ∀ id, s.service.idMap.lookup id = none → s'.service.idMap.lookup id = none)
    (hnodup : s'.main.owed.Nodup)
    (howed : ∀ id ∈ s'.main.owed,
      Issued s'.service id ∧ (id ∈ s'.main.pending ∨ s'.service.idMap.lookup id = none))
    (hnew : ∀ id ∈ s'.main.owed, id ∈ s.main.owed ∨ s.service.idMap.lookup id ≠ none) :
    Departures sent s' := by
  refine ⟨hconsistent, ?_, hnodup, howed, ?_, h.noGhosts⟩
  · rw [hreceiver]
    exact h.requests
  · intro x hx id hleave
    obtain ⟨hiss, hnone, hnot⟩ := h.departed x hx id hleave
    refine ⟨hissued id hiss, hlook id hnone, fun hid => ?_⟩
    rcases hnew id hid with hid | hfiled
    · exact hnot hid
    · exact hfiled hnone

/-- The receiving thread sends a packet which is not a move of a departed session. -/
theorem send (h : Departures sent s) {q : SendRequest} {requests : List SendRequest}
    {fault : Option Fault} (hrecv : s.receiver = .sending (q :: requests) fault)
    (hcond : ∀ id ∈ q.packet.mover, s.service.idMap.lookup id = none → id ∈ s.main.owed) :
    Departures (sent ++ q.perform s.service) { s with receiver := .sending requests fault } := by
  have hq : ∀ id, q.packet ≠ .lobbyPlayerLeave id := by
    apply h.requests
    rw [hrecv]
    exact List.mem_cons_self
  refine ⟨h.consistent, ?_, h.nodup, h.owed, ?_, ?_⟩
  · intro q' hq'
    apply h.requests
    rw [hrecv]
    exact List.mem_cons_of_mem _ hq'
  · intro x hx id hleave
    rcases List.mem_append.mp hx with hx | hx
    · exact h.departed x hx id hleave
    · rw [snd_of_mem_perform hx] at hleave
      exact absurd hleave (hq id)
  · refine List.pairwise_append.mpr ⟨h.noGhosts, ?_, ?_⟩
    · apply List.pairwise_of_forall_mem_list
      intro a ha b _
      rintro ⟨-, id, -, hleave⟩
      rw [snd_of_mem_perform ha] at hleave
      exact hq id hleave
    · rintro a ha b hb ⟨-, id, hmover, hleave⟩
      obtain ⟨-, hnone, howed⟩ := h.departed a ha id hleave
      rw [snd_of_mem_perform hb] at hmover
      exact howed (hcond id hmover hnone)

/-- `Tick` collects ids that are registered. -/
theorem scan (h : Departures sent s) (now : ℤ) :
    Departures sent { s with
      main := .removing (s.service.expired now) (s.service.expired now) } := by
  have hfiled : ∀ id ∈ s.service.expired now, ∃ r, s.service.idMap.lookup id = some r := by
    intro id hid
    obtain ⟨r, hr, -⟩ := mem_expired_iff.mp hid
    exact ⟨r, hr⟩
  refine h.work h.consistent rfl (fun _ hid => hid) (fun _ hid => hid)
    (nodup_expired s.service now) ?_ ?_
  · intro id hid
    obtain ⟨r, hr⟩ := hfiled id hid
    have hreg := h.consistent.registered_of_idMap hr
    exact ⟨⟨r, h.consistent.allocated r hreg, h.consistent.sessionId_eq hr⟩, .inl hid⟩
  · intro id hid
    obtain ⟨r, hr⟩ := hfiled id hid
    right
    rw [hr]
    exact Option.some_ne_none r

/-- `Tick` removes an id. -/
theorem remove (h : Departures sent s) {id : UInt64} {todo expired : List UInt64}
    (hmain : s.main = .removing (id :: todo) expired) :
    Departures sent { s with
      service := s.service.removeClient id
      main := .removing todo expired } := by
  have howed : s.main.owed = expired := congrArg MainThread.owed hmain
  have hpending : s.main.pending = id :: todo := congrArg MainThread.pending hmain
  have hlook : ∀ id', s.service.idMap.lookup id' = none →
      (s.service.removeClient id).idMap.lookup id' = none := by
    intro id' hnone
    rcases hlook' : (s.service.removeClient id).idMap.lookup id' with _ | r
    · rfl
    · rw [lookup_of_lookup_removeClient hlook'] at hnone
      cases hnone
  refine h.work (h.consistent.removeClient id) rfl (fun _ => issued_removeClient id) hlook ?_ ?_ ?_
  · exact howed ▸ h.nodup
  · intro id' hid'
    obtain ⟨hiss, hcase⟩ := h.owed id' (howed ▸ hid')
    rw [hpending, List.mem_cons] at hcase
    refine ⟨issued_removeClient id hiss, ?_⟩
    rcases hcase with (rfl | hmem) | hnone
    · exact .inr (lookup_removeClient_self s.service id')
    · exact .inl hmem
    · exact .inr (hlook id' hnone)
  · intro id' hid'
    exact .inl (howed ▸ hid')

/-- `Tick` returns when it has nothing left to remove. -/
theorem finish (h : Departures sent s) {expired : List UInt64}
    (hmain : s.main = .removing [] expired) :
    Departures sent { s with main := .leaving expired } := by
  have howed : s.main.owed = expired := congrArg MainThread.owed hmain
  have hpending : s.main.pending = [] := congrArg MainThread.pending hmain
  refine h.work h.consistent rfl (fun _ hid => hid) (fun _ hid => hid) ?_ ?_ ?_
  · exact howed ▸ h.nodup
  · intro id hid
    obtain ⟨hiss, hcase⟩ := h.owed id (howed ▸ hid)
    rw [hpending] at hcase
    exact ⟨hiss, .inr (hcase.resolve_left List.not_mem_nil)⟩
  · intro id hid
    exact .inl (howed ▸ hid)

/-- The main thread announces a departure. -/
theorem announce (h : Departures sent s) {id : UInt64} {todo : List UInt64}
    (hmain : s.main = .leaving (id :: todo)) :
    Departures (sent ++ onClientLeave s.service id) { s with main := .leaving todo } := by
  have howed : s.main.owed = id :: todo := congrArg MainThread.owed hmain
  have hpending : s.main.pending = [] := congrArg MainThread.pending hmain
  have hnodup := h.nodup
  rw [howed, List.nodup_cons] at hnodup
  have hgone : ∀ id' ∈ id :: todo, Issued s.service id' ∧ s.service.idMap.lookup id' = none := by
    intro id' hid'
    rw [← howed] at hid'
    obtain ⟨hiss, hmem | hnone⟩ := h.owed id' hid'
    · rw [hpending] at hmem
      exact absurd hmem List.not_mem_nil
    · exact ⟨hiss, hnone⟩
  have hpacket : ∀ x ∈ onClientLeave s.service id, x.2 = .lobbyPlayerLeave id := by
    intro x hx
    obtain ⟨_, _, -, rfl⟩ := mem_broadcast_iff.mp hx
    rfl
  refine ⟨h.consistent, h.requests, hnodup.2, ?_, ?_, ?_⟩
  · intro id' hid'
    obtain ⟨hiss, hnone⟩ := hgone id' (List.mem_cons_of_mem _ hid')
    exact ⟨hiss, .inr hnone⟩
  · intro x hx id' hleave
    rcases List.mem_append.mp hx with hx | hx
    · obtain ⟨hiss, hnone, hnot⟩ := h.departed x hx id' hleave
      rw [howed] at hnot
      exact ⟨hiss, hnone, fun hid' => hnot (List.mem_cons_of_mem _ hid')⟩
    · rw [hpacket x hx] at hleave
      cases hleave
      obtain ⟨hiss, hnone⟩ := hgone id List.mem_cons_self
      exact ⟨hiss, hnone, hnodup.1⟩
  · refine List.pairwise_append.mpr ⟨h.noGhosts, ?_, ?_⟩
    · apply List.pairwise_of_forall_mem_list
      intro a _ b hb
      rintro ⟨-, id', hmover, -⟩
      rw [hpacket b hb] at hmover
      cases hmover
    · rintro a - b hb ⟨-, id', hmover, -⟩
      rw [hpacket b hb] at hmover
      cases hmover

end Departures

/-- The requests of a handler announce no departure. -/
theorem packet_ne_lobbyPlayerLeave {ctx : UdpClientContext} {relays : Prop} {q : SendRequest}
    (h : RequestFor ctx relays q) (id : UInt64) : q.packet ≠ .lobbyPlayerLeave id := by
  cases h <;> exact ServerPacket.noConfusion

/-- **The step lemma.** -/
theorem departures_step {sent : List (SockAddrIn × ServerPacket)} {s : Threads ρ} {a : Action}
    (h : Departures sent s) (hbound : (s.step B a).1.service.next < 2 ^ 64)
    (hcond : ¬ RelaysDeparted ((threads B).entry s a)) :
    Departures (sent ++ (s.step B a).2.sent) (s.step B a).1 := by
  have hcase := threadsCase B s a
  simp only [Transducer.entry, threads] at hcond
  generalize s.step B a = next at hcase hcond hbound ⊢
  cases hcase with
  | quiet s' hservice _ hmain hrequests =>
      simp only [List.append_nil]
      refine h.receive ?_ (fun q hq => h.requests q (hrequests q hq)) hmain ?_ ?_
      · rw [hservice]
        exact h.consistent
      · intro id hid
        rwa [hservice]
      · intro id _
        rw [hservice]
  | registered d =>
      simp only [List.append_nil]
      refine h.receive (h.consistent.registerClient _ _ hbound)
        (fun q hq => absurd hq List.not_mem_nil) rfl (fun id => issued_registerClient _ _) ?_
      rintro id ⟨r, hlt, rfl⟩
      exact h.consistent.lookup_registerClient_of_issued hbound hlt
  | accepted d r =>
      simp only [List.append_nil]
      refine h.receive ?_ (fun q hq => absurd hq List.not_mem_nil) rfl ?_ fun _ _ => rfl
      · exact Consistent.modifyCtx (f := fun ctx => { ctx with
          lastSeq := d.header.sequence
          lastAliveMs := s.clock }) h.consistent rfl rfl
      · intro id
        exact issued_modifyCtx (f := fun ctx => { ctx with
          lastSeq := d.header.sequence
          lastAliveMs := s.clock }) rfl
  | dispatched d r =>
      have hhandled : Handled B _ _ s.clock (s.service.heap r) s.redis
          (handlePacket B (s.service.heap r) s.redis d.data d.data.length s.clock) :=
        handled_handlePacket d.data d.data.length
      simp only [List.append_nil]
      refine h.receive ?_ ?_ rfl (fun id => issued_modifyCtx hhandled.sessionId) fun _ _ => rfl
      · exact Consistent.modifyCtx (r := r) (f := fun _ =>
          (handlePacket B (s.service.heap r) s.redis d.data d.data.length s.clock).ctx)
          h.consistent hhandled.sessionId hhandled.addr
      · intro q hq
        exact packet_ne_lobbyPlayerLeave (hhandled.requests q hq)
  | sent q requests fault ha hrecv =>
      subst ha
      apply h.send hrecv
      intro id hmover hnone
      by_contra hnot
      refine hcond ⟨id, ?_, hnone, hnot⟩
      rw [Threads.relays, hrecv]
      exact hmover
  | began hmain =>
      simp only [List.append_nil]
      exact h.work h.consistent rfl (fun _ hid => hid) (fun _ hid => hid) List.nodup_nil
        (fun _ hid => absurd hid List.not_mem_nil) fun _ hid => absurd hid List.not_mem_nil
  | scanned now hmain =>
      simp only [List.append_nil]
      exact h.scan now
  | removed id todo expired hmain =>
      simp only [List.append_nil]
      exact h.remove hmain
  | returned expired hmain =>
      simp only [List.append_nil]
      exact h.finish hmain
  | left id todo hmain => exact h.announce hmain
  | rested hmain =>
      simp only [List.append_nil]
      exact h.work h.consistent rfl (fun _ hid => hid) (fun _ hid => hid) List.nodup_nil
        (fun _ hid => absurd hid List.not_mem_nil) fun _ hid => absurd hid List.not_mem_nil

/-! ## Runs -/

/-- No step lowers the number of contexts. -/
theorem next_le_threadsStep (B : Backend ρ) (s : Threads ρ) (a : Action) :
    s.service.next ≤ (s.step B a).1.service.next := by
  have hcase := threadsCase B s a
  generalize s.step B a = next at hcase ⊢
  cases hcase with
  | quiet s' hservice => exact hservice ▸ le_rfl
  | registered d => exact next_le_registerClient _ _ _
  | removed id => exact (removeClient_frame s.service id).2.1.ge
  | _ => exact le_rfl

/-- **No ghost players**, in every interleaving with fewer than `2 ^ 64` registrations in which every
relayed move belongs to a session that is registered, or whose departure is left to announce. -/
theorem noGhosts_of_not_relaysDeparted (rc : RedisClient ρ) (clock : ℤ) (as : List Action)
    (hbound : ((threads B).exec (.init rc clock) as).service.next < 2 ^ 64)
    (hcond : ∀ t ∈ (threads B).trace (.init rc clock) as, ¬ RelaysDeparted t) :
    NoGhosts (sentBy ((threads B).trace (.init rc clock) as)) := by
  have hinv : Departures (sentBy ((threads B).trace (.init rc clock) as))
      ((threads B).exec (.init rc clock) as) := by
    refine (threads B).history_invariant
      (C := fun t => ¬ RelaysDeparted t ∧ t.after.service.next < 2 ^ 64)
      (J := fun h s => Departures (sentBy h) s) (departures_init rc clock) ?_ as ?_
    · rintro h s a hinv ⟨hC, hlt⟩
      have hsent : sentBy (h ++ [(threads B).entry s a]) = sentBy h ++ (s.step B a).2.sent := by
        rw [sentBy, List.flatMap_append, List.flatMap_singleton]
        rfl
      rw [hsent]
      exact departures_step hinv hlt hC
    · intro t ht
      have hnext := (threads B).after_le_exec_of_mem_trace (f := fun s => s.service.next)
        (next_le_threadsStep B) ht
      exact ⟨hcond t ht, lt_of_le_of_lt hnext hbound⟩
  exact hinv.noGhosts

/-- The receiving thread serves a datagram to its end. -/
def serve (d : Datagram) : List Action :=
  [.arrive d, .receiver, .receiver, .receiver, .receiver, .receiver]

/-- The handshake of a player `A`. -/
def knockA : Datagram := .helloOf ⟨0x0100007F, 0x3930⟩ 65

/-- The handshake of a player `B` at another address. -/
def knockB : Datagram := .helloOf ⟨0x0100007F, 0x3931⟩ 66

/-- A move of the player `A`. -/
def moveA : Datagram := .moveToOrigin ⟨0x0100007F, 0x3930⟩ 1 1

/-- Player `A` shakes hands, and after the timeout player `B`. -/
def twoPlayers : List Action := serve knockA ++ .elapse 10001 :: serve knockB

/-- An iteration of the main loop that removes one session. -/
def removeOne : List Action := List.replicate 6 .main

theorem noGhosts_twoPlayers :
    NoGhosts (sentBy ((threads Backend.unreachable).trace (.init .disconnected 0)
      (twoPlayers ++ removeOne ++ serve moveA))) :=
  noGhosts_of_not_relaysDeparted .disconnected 0 (twoPlayers ++ removeOne ++ serve moveA)
    (by decide +kernel) (by decide +kernel)

/-- The context of player `A` is looked up for a move; then the session times out and its departure is
announced to player `B`; then the move is relayed to player `B`. -/
theorem not_noGhosts :
    ¬ NoGhosts (sentBy ((threads Backend.unreachable).trace (.init .disconnected 0)
      (twoPlayers ++ [.arrive moveA, .receiver] ++ removeOne ++
        [.receiver, .receiver, .receiver]))) := by
  decide +kernel

end CowboyPoker.GameServer
