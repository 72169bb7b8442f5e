import CowboyPoker.ServerCore.Deliveries
import CowboyPoker.GameServer.GhostPlayers
import CowboyPoker.GameServer.SessionIds

/-!
# Timeouts and departures

* `Turn`, `sequential` — the server whose receiving thread and main thread take turns: a datagram, or
  an iteration of the main loop, is handled to completion before the next one.
* `lastContact r h` — the time of the last registration or accepted datagram on the context at `r`,
  read off the entries `h` of a run. The invariant `Contacts` says that `lastAliveMs` is this time.
* `TickLaw` — an iteration of the main loop removes the sessions whose last contact is longer ago than
  the timeout, from both maps, and returns each id once.
* `AnnouncedOnce` — the departure of a removed session is announced once in the whole run, to those
  who are registered then. The invariant `LeftForGood` says that removed ids are not filed again.
* `timeout_law` — both, along every run and for any readings of the clock.
-/

namespace CowboyPoker.GameServer

open CowboyPoker.Found
open CowboyPoker.ServerCore
open UdpService

variable {ρ : Type} {B : Backend ρ}

/-! ## Turns -/

/-- What the two threads of the server do in a turn. The integers are readings of the clock, as in
`Event`. -/
inductive Turn
  /-- The receiving thread handles a datagram. -/
  | datagram (d : Datagram) (now later : ℤ)
  /-- The main thread goes through its loop once. -/
  | iteration (now : ℤ)

/-- A turn as an input of the server. -/
def Turn.event : Turn → Event
  | datagram d now later => .recv d now later
  | iteration now => .mainLoop now

/-- The server whose threads take turns. -/
def sequential (B : Backend ρ) : Transducer (Server ρ) Turn Output where
  step s u := s.step B u.event

/-- What a turn from `s` can have led to. -/
inductive TurnCase (B : Backend ρ) (s : Server ρ) : Turn → Server ρ × Output → Prop
  /-- The datagram was dropped, or the process has ended. -/
  | idle (u : Turn) : TurnCase B s u (s, {})
  /-- A datagram arrived and was handled. -/
  | handled (d : Datagram) (now later : ℤ) (r : UdpClientContextRef) (service : UdpService)
      (harr : Arrives s.service d now r service) :
      TurnCase B s (.datagram d now later) (Server.handled B s d later r service)
  /-- The main loop removed the silent clients and announced their departure. -/
  | looped (now : ℤ) (hfault : s.fault = none) :
      TurnCase B s (.iteration now) (s.mainLoop now)

/-- An iteration of the main loop of a running process. -/
theorem step_iteration {s : Server ρ} (hfault : s.fault = none) (now : ℤ) :
    s.step B (Turn.iteration now).event = s.mainLoop now := by
  unfold Server.step
  rw [if_neg (by rw [hfault]; exact Bool.false_ne_true)]
  rfl

/-- **The inversion of a turn.** -/
theorem turnCase (B : Backend ρ) (s : Server ρ) (u : Turn) :
    TurnCase B s u (s.step B u.event) := by
  cases u with
  | datagram d now later =>
      rcases recv_cases B s d now later with heq | ⟨r, service, -, harr, heq⟩
      · rw [Turn.event, heq]
        exact .idle _
      · rw [Turn.event, heq]
        exact .handled d now later r service harr
  | iteration now =>
      by_cases hfault : s.fault = none
      · rw [step_iteration hfault]
        exact .looped now hfault
      · rw [step_of_fault _ hfault]
        exact .idle _

/-! ## Contacts -/

/-- The time that a turn leaves in `lastAliveMs` of the context at `r`, if it registers the context or
accepts a datagram on it. `Handle_C_LOBBY_HEARTBEAT` reads the clock once more. -/
def contact (r : UdpClientContextRef) (t : Entry (Server ρ) Turn Output) : Option ℤ :=
  match t.input with
  | .datagram d now later =>
      if t.output.dispatched = some r then
        some (if PacketType.ofId d.header.id = some .cLobbyHeartbeat then later else now)
      else none
  | .iteration _ => none

/-- The time of the last registration or accepted datagram on the context at `r`. -/
def lastContact (r : UdpClientContextRef) (h : List (Entry (Server ρ) Turn Output)) : Option ℤ :=
  (h.filterMap (contact r)).getLast?

theorem lastContact_snoc (r : UdpClientContextRef) (h : List (Entry (Server ρ) Turn Output))
    (t : Entry (Server ρ) Turn Output) :
    lastContact r (h ++ [t]) = (contact r t).or (lastContact r h) := by
  unfold lastContact
  rw [List.filterMap_append]
  rcases hcontact : contact r t with _ | time
  · rw [List.filterMap_cons_none hcontact, List.filterMap_nil, List.append_nil, Option.none_or]
  · rw [List.filterMap_cons_some hcontact, List.filterMap_nil, List.getLast?_concat, Option.some_or]

/-- An arrival creates no context but the one that it returns. -/
theorem Arrives.lt_next {s service : UdpService} {d : Datagram} {now : ℤ} {r r' : ℕ}
    (h : Arrives s d now r service) (hlt : r' < service.next) (hne : r' ≠ r) : r' < s.next := by
  cases h with
  | handshake =>
      rcases hlook : s.addrMap.lookup (sockAddrKey d.senderAddr) with _ | r₀
      · rw [registerClient_of_none hlook] at hlt hne
        exact lt_of_le_of_ne (Nat.lt_succ_iff.mp hlt) hne
      · rwa [registerClient_of_some hlook] at hlt
  | sequenced => exact hlt

/-- An arrival stores the time. -/
theorem Arrives.lastAliveMs_eq {s service : UdpService} {d : Datagram} {now : ℤ} {r : ℕ}
    (h : Arrives s d now r service) : (service.heap r).lastAliveMs = now := by
  cases h with
  | handshake => exact registerClient_lastAliveMs _ _ _
  | sequenced => simp only [modifyCtx_heap_self]

theorem Arrives.filed {s service : UdpService} {d : Datagram} {now : ℤ} {r : ℕ}
    (h : Arrives s d now r service) (hs : Filed s) : Filed service := by
  cases h with
  | handshake => exact hs.registerClient _ _
  | sequenced =>
      exact Filed.modifyCtx (f := fun ctx => { ctx with
        lastSeq := d.header.sequence
        lastAliveMs := now }) hs rfl

/-- What a turn leaves in `lastAliveMs`. -/
theorem lastAliveMs_handled {s : Server ρ} {d : Datagram} {now later : ℤ} {r : ℕ}
    {service : UdpService} (harr : Arrives s.service d now r service) :
    ((Server.handled B s d later r service).1.service.heap r).lastAliveMs =
      if PacketType.ofId d.header.id = some .cLobbyHeartbeat then later else now := by
  simp only [Server.handled, modifyCtx_heap_self]
  rw [lastAliveMs_handlePacket, harr.lastAliveMs_eq]
  rfl

/-- `lastAliveMs` of the contexts of `s` is the time of the last contact among the entries `h`. -/
structure Contacts (h : List (Entry (Server ρ) Turn Output)) (s : Server ρ) : Prop where
  /-- Filed contexts have been created. -/
  filed : Filed s.service
  /-- The time of the last contact. -/
  alive : ∀ r : ℕ, r < s.service.next → lastContact r h = some (s.service.heap r).lastAliveMs

theorem contacts_init (rc : RedisClient ρ) : Contacts [] (.init rc : Server ρ) where
  filed := filed_init
  alive r hr := absurd hr (Nat.not_lt_zero r)

/-- **The step lemma.** -/
theorem contacts_step {h : List (Entry (Server ρ) Turn Output)} {s : Server ρ} {u : Turn}
    (hinv : Contacts h s) :
    Contacts (h ++ [(sequential B).entry s u]) ((sequential B).step s u).1 := by
  have hcase := turnCase B s u
  simp only [Transducer.entry, sequential]
  generalize s.step B u.event = next at hcase ⊢
  cases hcase with
  | idle =>
      refine ⟨hinv.filed, fun r hr => ?_⟩
      have hnone : contact r (⟨s, u, s, {}⟩ : Entry (Server ρ) Turn Output) = none := by
        cases u <;> rfl
      rw [lastContact_snoc, hnone, Option.none_or]
      exact hinv.alive r hr
  | handled d now later r service harr =>
      refine ⟨?_, fun r' hr' => ?_⟩
      · exact (harr.filed hinv.filed).modifyCtx (Server.handled_spec B s d later r service).sessionId
      · rw [lastContact_snoc]
        by_cases heq : r' = r
        · subst heq
          rw [lastAliveMs_handled harr]
          exact congrArg (Option.or · _) (if_pos rfl)
        · have hnone : contact r' ⟨s, .datagram d now later, (Server.handled B s d later r service).1,
              (Server.handled B s d later r service).2⟩ = none :=
            if_neg fun hsome => heq (Option.some.inj hsome).symm
          rw [hnone, Option.none_or, Server.handled_heap_of_ne heq, harr.heap_of_ne heq]
          exact hinv.alive r' (harr.lt_next hr' heq)
  | looped now hfault =>
      obtain ⟨hheap, hnext, -⟩ := foldl_removeClient_frame s.service (s.service.expired now)
      refine ⟨fun id r hr => ?_, fun r hr => ?_⟩
      · have hr := (lookup_foldl_removeClient_eq_some_iff.mp hr).1
        simp only [Server.mainLoop, tick, hheap, hnext]
        exact hinv.filed id r hr
      · have hnone : contact r (⟨s, .iteration now, (s.mainLoop now).1, (s.mainLoop now).2⟩ :
            Entry (Server ρ) Turn Output) = none := rfl
        simp only [Server.mainLoop, tick, hheap, hnext] at hr ⊢
        rw [lastContact_snoc]
        exact (congrArg (Option.or · _) hnone).trans (hinv.alive r hr)

/-! ## Ticks -/

/-- The last contact is longer ago than the timeout. -/
def Silent (h : List (Entry (Server ρ) Turn Output)) (now : ℤ) (r : UdpClientContextRef) : Prop :=
  ∃ time ∈ lastContact r h, sessionTimeoutMs < now - time

/-- What the iteration `t` of the main loop does at time `now`, after the entries `h`. -/
structure TickLaw (h : List (Entry (Server ρ) Turn Output)) (now : ℤ)
    (t : Entry (Server ρ) Turn Output) : Prop where
  /-- No id is returned twice. -/
  nodup : t.output.removed.Nodup
  /-- The ids of the silent sessions are returned. -/
  returned : ∀ id, id ∈ t.output.removed ↔
    ∃ r, t.before.service.idMap.lookup id = some r ∧ Silent h now r
  /-- The silent sessions leave `_idMap`. -/
  idMap : ∀ id r, t.after.service.idMap.lookup id = some r ↔
    t.before.service.idMap.lookup id = some r ∧ ¬ Silent h now r
  /-- They leave `_addrMap`, while ids last. -/
  addrMap : t.before.service.next < 2 ^ 64 → ∀ key r, t.after.service.addrMap.lookup key = some r ↔
    t.before.service.addrMap.lookup key = some r ∧ ¬ Silent h now r
  /-- Nothing else changes. -/
  untouched : t.after = { t.before with
    service := { t.before.service with
      idMap := t.after.service.idMap
      addrMap := t.after.service.addrMap } }

section tick

variable {h : List (Entry (Server ρ) Turn Output)} {s : Server ρ} {now : ℤ}

/-- Silence is read off `lastAliveMs`. -/
theorem Contacts.silent_iff (hinv : Contacts h s) {r : ℕ} (hr : r < s.service.next) :
    Silent h now r ↔ sessionTimeoutMs < now - (s.service.heap r).lastAliveMs := by
  simp only [Silent, hinv.alive r hr, Option.mem_def, Option.some.injEq, exists_eq_left']

/-- `Tick` collects the ids of the silent sessions. -/
theorem Contacts.mem_expired_iff (hinv : Contacts h s) {id : UInt64} :
    id ∈ s.service.expired now ↔ ∃ r, s.service.idMap.lookup id = some r ∧ Silent h now r := by
  rw [UdpService.mem_expired_iff]
  constructor
  · rintro ⟨r, hr, hold⟩
    exact ⟨r, hr, (hinv.silent_iff (hinv.filed id r hr).1).mpr hold⟩
  · rintro ⟨r, hr, hold⟩
    exact ⟨r, hr, (hinv.silent_iff (hinv.filed id r hr).1).mp hold⟩

/-- A session that is filed is collected exactly when it is silent. -/
theorem Contacts.mem_expired_of_lookup (hinv : Contacts h s) {id : UInt64} {r : ℕ}
    (hr : s.service.idMap.lookup id = some r) :
    id ∈ s.service.expired now ↔ Silent h now r := by
  rw [hinv.mem_expired_iff]
  constructor
  · rintro ⟨r', hr', hold⟩
    cases hr.symm.trans hr'
    exact hold
  · exact fun hold => ⟨r, hr, hold⟩

/-- **An iteration of the main loop** removes the silent sessions. -/
theorem tickLaw_mainLoop (now : ℤ) (hinv : Contacts h s)
    (hs : s.service.next < 2 ^ 64 → s.service.Consistent) :
    TickLaw h now ⟨s, .iteration now, (s.mainLoop now).1, (s.mainLoop now).2⟩ := by
  obtain ⟨hheap, hnext, hcounter⟩ := foldl_removeClient_frame s.service (s.service.expired now)
  constructor
  · exact nodup_expired s.service now
  · exact fun id => hinv.mem_expired_iff
  · intro id r
    refine lookup_foldl_removeClient_eq_some_iff.trans (and_congr_right fun hr => ?_)
    rw [hinv.mem_expired_of_lookup hr]
  · intro hbound key r
    have hafter := (hs hbound).foldl_removeClient (s.service.expired now)
    refine hafter.addrMap_eq_some_iff.trans ?_
    rw [registered_foldl_removeClient_iff, (hs hbound).addrMap_eq_some_iff, hheap, and_right_comm]
    refine and_congr_right fun hr => ?_
    rw [hinv.mem_expired_of_lookup hr.1]
  · simp only [Server.mainLoop, tick]
    generalize (s.service.expired now).foldl removeClient s.service = service at hheap hnext hcounter
    obtain ⟨heap, next, idMap, addrMap, sCounter⟩ := service
    dsimp only at hheap hnext hcounter
    rw [hheap, hnext, hcounter]

end tick

/-! ## Departures -/

/-- The ids that the turns of a run passed to `RemoveClient`. -/
def removedIds (h : List (Entry (Server ρ) Turn Output)) : List UInt64 :=
  h.flatMap fun t => t.output.removed

/-- The packets that the turns of a run built. -/
def builtPackets (h : List (Entry (Server ρ) Turn Output)) : List ServerPacket :=
  h.flatMap fun t => t.output.built

/-- The datagrams of a run that announce the departure of the session with the given id. -/
def announcements (id : UInt64) (h : List (Entry (Server ρ) Turn Output)) :
    List (SockAddrIn × ServerPacket) :=
  (h.flatMap fun t => t.output.sent).filter fun x => x.2 = .lobbyPlayerLeave id

/-- The turn removes the session of the context at `r`. -/
def Departs (t : Entry (Server ρ) Turn Output) (r : UdpClientContextRef) : Prop :=
  t.before.service.Registered r ∧ ¬ t.after.service.Registered r

/-- The session of the context at `r`, which the turn `t` between `pre` and `post` removes, is announced
once in the whole run. -/
structure AnnouncedOnce (pre : List (Entry (Server ρ) Turn Output)) (t : Entry (Server ρ) Turn Output)
    (post : List (Entry (Server ρ) Turn Output)) (r : UdpClientContextRef) : Prop where
  /-- The turn is an iteration of the main loop. -/
  iteration : ∃ now, t.input = .iteration now
  /-- One packet is built. -/
  once : (builtPackets (pre ++ t :: post)).count
    (.lobbyPlayerLeave (t.before.service.heap r).sessionId) = 1
  /-- It is sent once to each session that is registered after the turn. -/
  sent : SentOnceTo t.after.service
    (announcements (t.before.service.heap r).sessionId (pre ++ t :: post)) t.after.service.Registered
  /-- No session that has been removed so far is among these. -/
  removed : ∀ u ∈ pre ++ [t], ∀ r', Departs u r' → ¬ t.after.service.Registered r'
  /-- Nothing goes to the address of a session that the turn removes. -/
  departed : ∀ r', Departs t r' →
    ∀ x ∈ announcements (t.before.service.heap r).sessionId (pre ++ t :: post),
      x.1 ≠ (t.before.service.heap r').addr

/-- Fewer than `2 ^ 64` contexts are created. -/
def IdsLast (h : List (Entry (Server ρ) Turn Output)) : Prop :=
  ∀ t ∈ h, t.after.service.next < 2 ^ 64

/-- **Timeouts and departures** in the run `h`. -/
structure TimeoutLaw (h : List (Entry (Server ρ) Turn Output)) : Prop where
  /-- The time of the last contact is the one that `Tick` looks at. -/
  contacts : ∀ pre t post, h = pre ++ t :: post → ∀ id r,
    t.before.service.idMap.lookup id = some r →
    lastContact r pre = some (t.before.service.heap r).lastAliveMs
  /-- Every iteration of the main loop removes the silent sessions. -/
  tick : ∀ pre t post now, h = pre ++ t :: post → t.input = .iteration now →
    t.before.fault = none → TickLaw pre now t
  /-- Every session that is removed is announced once. -/
  leave : IdsLast h → ∀ pre t post, h = pre ++ t :: post → ∀ r, Departs t r →
    AnnouncedOnce pre t post r

section turns

variable {s : Server ρ} {u : Turn} {id : UInt64}

/-- A value of a list without repetitions contributes once. -/
theorem flatMap_ite_eq {α β : Type} [DecidableEq α] {ids : List α} (h : ids.Nodup) (a : α)
    (l : List β) : (ids.flatMap fun b => if b = a then l else []) = if a ∈ ids then l else [] := by
  induction ids with
  | nil => rfl
  | cons b ids ih =>
      obtain ⟨hb, hids⟩ := List.nodup_cons.mp h
      rw [List.flatMap_cons, ih hids]
      by_cases heq : b = a
      · subst heq
        rw [if_pos rfl, if_neg hb, if_pos List.mem_cons_self, List.append_nil]
      · have hmem : a ∈ b :: ids ↔ a ∈ ids := by
          rw [List.mem_cons, or_iff_right (Ne.symm heq)]
        simp only [if_neg heq, List.nil_append, hmem]

/-- **A turn builds one announcement for each id that it removes.** -/
theorem count_built_turn (B : Backend ρ) (s : Server ρ) (u : Turn) (id : UInt64) :
    (s.step B u.event).2.built.count (.lobbyPlayerLeave id) =
      (s.step B u.event).2.removed.count id := by
  have hcase := turnCase B s u
  generalize s.step B u.event = next at hcase ⊢
  cases hcase with
  | idle => rfl
  | handled d now later r service harr =>
      refine List.count_eq_zero_of_not_mem fun hmem => ?_
      obtain ⟨q, heq, hfor, -⟩ := Server.exists_request_of_mem_built hmem
      exact packet_ne_lobbyPlayerLeave hfor _ heq
  | looped now hfault =>
      exact List.count_map_of_injective _ _ (fun _ _ => ServerPacket.lobbyPlayerLeave.inj) _

/-- **It sends them to the sessions that are registered behind it.** -/
theorem filter_sent_turn (B : Backend ρ) (s : Server ρ) (u : Turn) (id : UInt64) :
    ((s.step B u.event).2.sent.filter fun x => x.2 = .lobbyPlayerLeave id) =
      if id ∈ (s.step B u.event).2.removed then
        (s.step B u.event).1.service.broadcast (.lobbyPlayerLeave id)
      else [] := by
  have hcase := turnCase B s u
  generalize s.step B u.event = next at hcase ⊢
  cases hcase with
  | idle => rfl
  | handled d now later r service harr =>
      have hnil : ((Server.handled B s d later r service).2.sent.filter fun x =>
          decide (x.2 = .lobbyPlayerLeave id)) = [] := by
        refine List.filter_eq_nil_iff.mpr fun x hx hleave => ?_
        obtain ⟨q, hfor, hperform⟩ := Server.exists_request_of_mem_sent hx
        have hpacket := snd_of_mem_perform hperform
        exact packet_ne_lobbyPlayerLeave hfor _ (hpacket.symm.trans (of_decide_eq_true hleave))
      rw [hnil]
      exact (if_neg List.not_mem_nil).symm
  | looped now hfault =>
      have hone : ∀ id', (onClientLeave (s.service.tick now).2 id').filter
          (fun x => decide (x.2 = .lobbyPlayerLeave id)) =
            if id' = id then (s.service.tick now).2.broadcast (.lobbyPlayerLeave id) else [] := by
        intro id'
        have hpacket : ∀ x ∈ onClientLeave (s.service.tick now).2 id',
            x.2 = .lobbyPlayerLeave id' := by
          intro x hx
          obtain ⟨_, _, -, rfl⟩ := mem_broadcast_iff.mp hx
          rfl
        by_cases heq : id' = id
        · subst heq
          rw [if_pos rfl]
          exact List.filter_eq_self.mpr fun x hx => decide_eq_true (hpacket x hx)
        · rw [if_neg heq]
          refine List.filter_eq_nil_iff.mpr fun x hx hleave => heq ?_
          exact ServerPacket.lobbyPlayerLeave.inj
            ((hpacket x hx).symm.trans (of_decide_eq_true hleave))
      simp only [Server.mainLoop, List.filter_flatMap, hone]
      exact flatMap_ite_eq (nodup_expired s.service now) id _

/-- An arrival keeps which ids have been issued. -/
theorem Arrives.issued {s service : UdpService} {d : Datagram} {now : ℤ} {r : ℕ}
    (h : Arrives s d now r service) (hid : Issued s id) : Issued service id := by
  cases h with
  | handshake => exact issued_registerClient _ _ hid
  | sequenced =>
      exact issued_modifyCtx (f := fun ctx => { ctx with
        lastSeq := d.header.sequence
        lastAliveMs := now }) rfl hid

/-- An arrival files nothing else under an id that has been issued. -/
theorem Arrives.lookup_of_issued {s service : UdpService} {d : Datagram} {now : ℤ} {r : ℕ}
    (h : Arrives s d now r service) (hs : s.Consistent) (hbound : service.next < 2 ^ 64)
    (hid : Issued s id) : service.idMap.lookup id = s.idMap.lookup id := by
  cases h with
  | handshake =>
      obtain ⟨r', hr', rfl⟩ := hid
      exact hs.lookup_registerClient_of_issued hbound hr'
  | sequenced => rfl

/-- The sessions that the entries `h` removed are gone for good when the server is in `s`. -/
structure LeftForGood (h : List (Entry (Server ρ) Turn Output)) (s : Server ρ) : Prop where
  /-- The registry is consistent. -/
  consistent : s.service.Consistent
  /-- No id is removed twice. -/
  nodup : (removedIds h).Nodup
  /-- A removed id has been issued, and is not filed any more. -/
  gone : ∀ id ∈ removedIds h, Issued s.service id ∧ s.service.idMap.lookup id = none

theorem leftForGood_init (rc : RedisClient ρ) : LeftForGood [] (.init rc : Server ρ) where
  consistent := consistent_init
  nodup := List.nodup_nil
  gone _ h := absurd h List.not_mem_nil

theorem removedIds_snoc (h : List (Entry (Server ρ) Turn Output))
    (t : Entry (Server ρ) Turn Output) :
    removedIds (h ++ [t]) = removedIds h ++ t.output.removed := by
  simp only [removedIds, List.flatMap_append, List.flatMap_cons, List.flatMap_nil, List.append_nil]

/-- **The step lemma.** -/
theorem leftForGood_step {h : List (Entry (Server ρ) Turn Output)} (hinv : LeftForGood h s)
    (hbound : ((sequential B).step s u).1.service.next < 2 ^ 64) :
    LeftForGood (h ++ [(sequential B).entry s u]) ((sequential B).step s u).1 := by
  have hcase := turnCase B s u
  have hconsistent : (s.step B u.event).1.service.Consistent := consistent_step hinv.consistent hbound
  simp only [Transducer.entry, sequential] at hbound ⊢
  generalize s.step B u.event = next at hcase hconsistent hbound ⊢
  cases hcase with
  | idle =>
      refine ⟨hconsistent, ?_, ?_⟩
      · rw [removedIds_snoc, List.append_nil]
        exact hinv.nodup
      · rw [removedIds_snoc, List.append_nil]
        exact hinv.gone
  | handled d now later r service harr =>
      have hnone : removedIds (h ++ [⟨s, .datagram d now later,
          (Server.handled B s d later r service).1, (Server.handled B s d later r service).2⟩]) =
            removedIds h := by
        rw [removedIds_snoc]
        exact List.append_nil _
      refine ⟨hconsistent, by rw [hnone]; exact hinv.nodup, fun id hid => ?_⟩
      rw [hnone] at hid
      obtain ⟨hissued, hlook⟩ := hinv.gone id hid
      constructor
      · exact issued_modifyCtx (Server.handled_spec B s d later r service).sessionId
          (harr.issued hissued)
      · exact (harr.lookup_of_issued hinv.consistent hbound hissued).trans hlook
  | looped now hfault =>
      have hsnoc : removedIds (h ++ [⟨s, .iteration now, (s.mainLoop now).1, (s.mainLoop now).2⟩]) =
          removedIds h ++ s.service.expired now := removedIds_snoc h _
      obtain ⟨hheap, hnext, -⟩ := foldl_removeClient_frame s.service (s.service.expired now)
      have hissued : ∀ id, Issued s.service id → Issued (s.mainLoop now).1.service id := by
        rintro id ⟨r, hr, rfl⟩
        exact ⟨r, lt_of_lt_of_eq hr hnext.symm, congrArg (fun heap => (heap r).sessionId) hheap⟩
      refine ⟨hconsistent, ?_, fun id hid => ?_⟩
      · rw [hsnoc]
        refine List.nodup_append.mpr ⟨hinv.nodup, nodup_expired s.service now, ?_⟩
        rintro id hid _ hexpired rfl
        -- what is collected is filed, what has been removed is not
        obtain ⟨r, hr, -⟩ := mem_expired_iff.mp hexpired
        rw [(hinv.gone id hid).2] at hr
        cases hr
      · have hlook : ∀ r, (s.mainLoop now).1.service.idMap.lookup id = some r →
            s.service.idMap.lookup id = some r ∧ id ∉ s.service.expired now :=
          fun r hr => lookup_foldl_removeClient_eq_some_iff.mp hr
        rw [hsnoc] at hid
        rcases List.mem_append.mp hid with hid | hid
        · obtain ⟨hiss, hnone⟩ := hinv.gone id hid
          refine ⟨hissued id hiss, Option.eq_none_iff_forall_ne_some.mpr fun r hr => ?_⟩
          rw [(hlook r hr).1] at hnone
          cases hnone
        · obtain ⟨r, hr, -⟩ := mem_expired_iff.mp hid
          refine ⟨hissued id ⟨r, ?_, hinv.consistent.sessionId_eq hr⟩,
            Option.eq_none_iff_forall_ne_some.mpr fun r' hr' => (hlook r' hr').2 hid⟩
          exact hinv.consistent.allocated r (hinv.consistent.registered_of_idMap hr)

end turns

/-! ## Runs -/

section runs

variable {rc : RedisClient ρ} {s₀ : Server ρ} {us : List Turn} {t : Entry (Server ρ) Turn Output}
  {pre post : List (Entry (Server ρ) Turn Output)} {id : UInt64} {r : UdpClientContextRef}

/-- The registry is consistent while ids last. -/
theorem consistent_sequential (B : Backend ρ) (rc : RedisClient ρ) (us : List Turn)
    (hbound : ((sequential B).exec (.init rc) us).service.next < 2 ^ 64) :
    ((sequential B).exec (.init rc) us).service.Consistent := by
  refine (sequential B).guarded_invariant (C := fun t => t.after.service.next < 2 ^ 64)
    (I := fun s => s.service.Consistent) consistent_init
    (fun _ _ hs hC => consistent_step hs hC) us fun t ht => ?_
  exact lt_of_le_of_lt ((sequential B).after_le_exec_of_mem_trace (f := fun s => s.service.next)
    (fun s u => next_le_step B s u.event) ht) hbound

/-- Contacts are recorded along every run. -/
theorem contacts_exec (B : Backend ρ) (rc : RedisClient ρ) (us : List Turn) :
    Contacts ((sequential B).trace (.init rc) us) ((sequential B).exec (.init rc) us) :=
  (sequential B).history_invariant (C := fun _ => True) (J := Contacts) (contacts_init rc)
    (fun _ _ _ hinv _ => contacts_step hinv) us fun _ _ => trivial

/-- Removed sessions are gone for good, while ids last. -/
theorem leftForGood_exec (B : Backend ρ) (rc : RedisClient ρ) (us : List Turn)
    (hids : IdsLast ((sequential B).trace (.init rc) us)) :
    LeftForGood ((sequential B).trace (.init rc) us) ((sequential B).exec (.init rc) us) :=
  (sequential B).history_invariant (C := fun t => t.after.service.next < 2 ^ 64) (J := LeftForGood)
    (leftForGood_init rc) (fun _ _ _ hinv hC => leftForGood_step hinv hC) us hids

/-- A run builds one announcement for each id that it removes. -/
theorem count_builtPackets (B : Backend ρ) (s₀ : Server ρ) (us : List Turn) (id : UInt64) :
    (builtPackets ((sequential B).trace s₀ us)).count (.lobbyPlayerLeave id) =
      (removedIds ((sequential B).trace s₀ us)).count id := by
  rw [builtPackets, removedIds, List.count_flatMap, List.count_flatMap]
  refine congrArg List.sum (List.map_congr_left fun t ht => ?_)
  obtain ⟨fs, u, gs, -, rfl⟩ := (sequential B).mem_trace_iff.mp ht
  exact count_built_turn B _ u id

/-- If only one turn of a run removes an id, the announcements are the broadcast of that turn. -/
theorem announcements_eq (htrace : (sequential B).trace s₀ us = pre ++ t :: post)
    (hnodup : (removedIds (pre ++ t :: post)).Nodup) (hid : id ∈ t.output.removed) :
    announcements id (pre ++ t :: post) = t.after.service.broadcast (.lobbyPlayerLeave id) := by
  have hturn : ∀ u ∈ pre ++ t :: post,
      (u.output.sent.filter fun x => decide (x.2 = .lobbyPlayerLeave id)) =
        if id ∈ u.output.removed then u.after.service.broadcast (.lobbyPlayerLeave id) else [] := by
    intro u hu
    rw [← htrace] at hu
    obtain ⟨fs, u, gs, -, rfl⟩ := (sequential B).mem_trace_iff.mp hu
    exact filter_sent_turn B _ u id
  have hsplit : removedIds (pre ++ t :: post) =
      removedIds pre ++ (t.output.removed ++ removedIds post) := by
    simp only [removedIds, List.flatMap_append, List.flatMap_cons]
  rw [hsplit] at hnodup
  obtain ⟨-, htail, hpre⟩ := List.nodup_append.mp hnodup
  obtain ⟨-, -, hpost⟩ := List.nodup_append.mp htail
  -- the other turns do not remove the id again
  have hnone : ∀ u ∈ pre ++ post, id ∉ u.output.removed := by
    intro u hu hmem
    rcases List.mem_append.mp hu with hu | hu
    · exact hpre id (List.mem_flatMap.mpr ⟨u, hu, hmem⟩) id (List.mem_append_left _ hid) rfl
    · exact hpost id hid id (List.mem_flatMap.mpr ⟨u, hu, hmem⟩) rfl
  have hquiet : ∀ l : List (Entry (Server ρ) Turn Output), l ⊆ pre ++ t :: post →
      (∀ u ∈ l, id ∉ u.output.removed) → announcements id l = [] := by
    intro l hsub hl
    rw [announcements, List.filter_flatMap]
    refine List.flatMap_eq_nil_iff.mpr fun u hu => ?_
    rw [hturn u (hsub hu), if_neg (hl u hu)]
  have hpreNil := hquiet pre (List.subset_append_left _ _)
    fun u hu => hnone u (List.mem_append_left _ hu)
  have hpostNil := hquiet post
    (List.Subset.trans (List.subset_cons_self _ _) (List.subset_append_right _ _))
    fun u hu => hnone u (List.mem_append_right _ hu)
  rw [announcements] at hpreNil hpostNil
  rw [announcements, List.flatMap_append, List.flatMap_cons, List.filter_append, List.filter_append,
    hpreNil, hpostNil, hturn t (List.mem_append_right _ List.mem_cons_self), if_pos hid,
    List.nil_append, List.append_nil]

/-- **Only the main loop removes a session**, and because its `Tick` has collected the id. -/
theorem looped_of_departs {s : Server ρ} {u : Turn} (hs : s.service.Consistent)
    (hbound : (s.step B u.event).1.service.next < 2 ^ 64)
    (h : Departs ((sequential B).entry s u) r) :
    ∃ now, u = .iteration now ∧ s.step B u.event = s.mainLoop now ∧
      (s.service.heap r).sessionId ∈ s.service.expired now := by
  obtain ⟨hr, hgone⟩ := h
  have hid : (s.service.heap r).sessionId ∈ (s.step B u.event).2.removed := by
    by_contra hid
    exact hgone (registered_step hs hbound hr hid).1
  have hcase := turnCase B s u
  generalize s.step B u.event = next at hcase hid
  cases hcase with
  | idle => exact absurd hid List.not_mem_nil
  | handled => exact absurd hid List.not_mem_nil
  | looped now => exact ⟨now, rfl, rfl, hid⟩

/-- The id of a session that a turn removes is among those it removes. -/
theorem mem_removed_of_departs {s : Server ρ} {u : Turn} (hs : s.service.Consistent)
    (hbound : (s.step B u.event).1.service.next < 2 ^ 64)
    (h : Departs ((sequential B).entry s u) r) :
    (s.service.heap r).sessionId ∈ ((sequential B).entry s u).output.removed := by
  obtain ⟨now, -, heq, hid⟩ := looped_of_departs hs hbound h
  simp only [Transducer.entry, sequential, heq]
  exact hid

/-- A session that stays is not at the address of one that the same turn removes. -/
theorem addr_ne_of_departs {s : Server ρ} {u : Turn} {r' : UdpClientContextRef}
    (hs : s.service.Consistent) (hbound : (s.step B u.event).1.service.next < 2 ^ 64)
    (h : Departs ((sequential B).entry s u) r) (hr' : (s.step B u.event).1.service.Registered r') :
    ((s.step B u.event).1.service.heap r').addr ≠ (s.service.heap r).addr := by
  obtain ⟨now, -, heq, -⟩ := looped_of_departs hs hbound h
  obtain ⟨hr, hgone⟩ := h
  simp only [Transducer.entry, sequential, heq] at hr hgone hr' ⊢
  have hheap := (foldl_removeClient_frame s.service (s.service.expired now)).1
  intro haddr
  have hkey : (s.service.heap r').addr = (s.service.heap r).addr :=
    (congrArg (fun heap => (heap r').addr) hheap).symm.trans haddr
  have hold := (registered_foldl_removeClient_iff.mp hr').1
  rw [hs.eq_of_key_eq hold hr (congrArg sockAddrKey hkey)] at hr'
  exact hgone hr'

/-- A session that has been removed is not registered again. -/
theorem LeftForGood.not_registered {h : List (Entry (Server ρ) Turn Output)} {s s' : Server ρ}
    {u : Turn} (hinv : LeftForGood h s') (hmem : (sequential B).entry s u ∈ h)
    (hs : s.service.Consistent) (hbound : (s.step B u.event).1.service.next < 2 ^ 64)
    (hdeparts : Departs ((sequential B).entry s u) r) : ¬ s'.service.Registered r := by
  intro hreg
  have hgone := (hinv.gone _ (List.mem_flatMap.mpr
    ⟨_, hmem, mem_removed_of_departs hs hbound hdeparts⟩)).2
  -- the context has kept its id
  have hsame := (hinv.consistent.issued r (hinv.consistent.allocated r hreg)).trans
    (hs.issued r (hs.allocated r hdeparts.1)).symm
  rw [← hsame, show _ = some r from hreg] at hgone
  cases hgone

/-- While ids last, every turn of a run starts from a consistent registry. -/
theorem consistent_of_idsLast (hids : IdsLast ((sequential B).trace (.init rc) us))
    (ht : t ∈ (sequential B).trace (.init rc) us) :
    ∃ s u, t = (sequential B).entry s u ∧ s.service.Consistent ∧
      (s.step B u.event).1.service.next < 2 ^ 64 := by
  have hbound := hids t ht
  obtain ⟨fs, u, gs, -, rfl⟩ := (sequential B).mem_trace_iff.mp ht
  refine ⟨_, u, rfl, consistent_sequential B rc fs ?_, hbound⟩
  exact lt_of_le_of_lt (next_le_step B _ u.event) hbound

/-- What a run has removed up to and with one of its turns. -/
theorem leftForGood_of_trace (hids : IdsLast ((sequential B).trace (.init rc) us))
    (htrace : (sequential B).trace (.init rc) us = pre ++ t :: post) :
    LeftForGood (pre ++ [t]) t.after := by
  rw [htrace] at hids
  obtain ⟨fs, u, gs, -, hpre, ht, -⟩ := (sequential B).trace_eq_append_cons htrace
  have hsnoc : (sequential B).trace (.init rc) (fs ++ [u]) = pre ++ [t] := by
    rw [Transducer.trace_append, hpre, ht]
    rfl
  have hafter : (sequential B).exec (.init rc) (fs ++ [u]) = t.after := by
    rw [Transducer.exec_append, ht]
    rfl
  rw [← hsnoc, ← hafter]
  refine leftForGood_exec B rc _ fun v hv => ?_
  rw [hsnoc] at hv
  exact hids v (List.append_subset.mpr ⟨List.subset_append_left _ _, by simp⟩ hv)

/-- **The announcement of a removed session.** -/
theorem announcedOnce (hids : IdsLast ((sequential B).trace (.init rc) us))
    (htrace : (sequential B).trace (.init rc) us = pre ++ t :: post) (h : Departs t r) :
    AnnouncedOnce pre t post r := by
  have hsofar := leftForGood_of_trace hids htrace
  have hnodup := (leftForGood_exec B rc us hids).nodup
  have hcount := count_builtPackets B (.init rc) us (t.before.service.heap r).sessionId
  have hturn : ∀ v ∈ pre ++ [t], ∃ s u, v = (sequential B).entry s u ∧ s.service.Consistent ∧
      (s.step B u.event).1.service.next < 2 ^ 64 := by
    intro v hv
    apply consistent_of_idsLast hids
    rw [htrace]
    exact List.append_subset.mpr ⟨List.subset_append_left _ _, by simp⟩ hv
  rw [htrace] at hnodup hcount
  obtain ⟨s, u, rfl, hs, hbound⟩ := hturn t (List.mem_append_right _ (List.mem_singleton_self t))
  obtain ⟨now, rfl, -, -⟩ := looped_of_departs hs hbound h
  have hremoved := mem_removed_of_departs hs hbound h
  have hsent := hsofar.consistent.sentOnceTo_broadcast
    (ServerPacket.lobbyPlayerLeave (s.service.heap r).sessionId)
  rw [← announcements_eq htrace hnodup hremoved] at hsent
  constructor
  · exact ⟨now, rfl⟩
  · rw [hcount]
    exact List.count_eq_one_of_mem hnodup
      (List.mem_flatMap.mpr ⟨_, List.mem_append_right _ List.mem_cons_self, hremoved⟩)
  · exact hsent
  · intro v hv r' hdeparts
    obtain ⟨s', u', rfl, hs', hbound'⟩ := hturn v hv
    exact hsofar.not_registered hv hs' hbound' hdeparts
  · intro r' hdeparts x hx haddr
    obtain ⟨r'', hreg, hx⟩ := hsent.only x hx
    exact addr_ne_of_departs hs hbound hdeparts hreg (hx.symm.trans haddr)

end runs

/-- **Timeouts and departures.** In every run in which the threads take turns, `Tick` removes the
sessions that have been silent for longer than the timeout and no others, and each is announced once. -/
theorem timeout_law (B : Backend ρ) (rc : RedisClient ρ) (us : List Turn) :
    TimeoutLaw ((sequential B).trace (.init rc) us) := by
  constructor
  · intro pre t post htrace id r hr
    obtain ⟨fs, u, gs, -, rfl, rfl, -⟩ := (sequential B).trace_eq_append_cons htrace
    have hinv := contacts_exec B rc fs
    exact hinv.alive r (hinv.filed id r hr).1
  · intro pre t post now htrace hinput hrun
    obtain ⟨fs, u, gs, -, rfl, rfl, -⟩ := (sequential B).trace_eq_append_cons htrace
    have hinput : u = .iteration now := hinput
    have hfault : ((sequential B).exec (.init rc) fs).fault = none := hrun
    subst hinput
    have hlaw := tickLaw_mainLoop now (contacts_exec B rc fs) (consistent_sequential B rc fs)
    rwa [← step_iteration (B := B) hfault] at hlaw
  · exact fun hids pre t post htrace r h => announcedOnce hids htrace h

/-- The second of two clients is silent for the timeout at time 10001, and for longer a millisecond
later. -/
example : removedIds ((sequential Backend.unreachable).trace (.init .disconnected)
    [.datagram (.helloOf ⟨0x0100007F, 0x3930⟩ 65) 0 0,
      .datagram (.helloOf ⟨0x0100007F, 0x3A30⟩ 66) 1 1,
      .datagram (.moveToOrigin ⟨0x0100007F, 0x3930⟩ 1 1) 5000 5000, .iteration 10001]) = [] ∧
    removedIds ((sequential Backend.unreachable).trace (.init .disconnected)
      [.datagram (.helloOf ⟨0x0100007F, 0x3930⟩ 65) 0 0,
        .datagram (.helloOf ⟨0x0100007F, 0x3A30⟩ 66) 1 1,
        .datagram (.moveToOrigin ⟨0x0100007F, 0x3930⟩ 1 1) 5000 5000, .iteration 10002]) = [2] := by
  decide +kernel

end CowboyPoker.GameServer
