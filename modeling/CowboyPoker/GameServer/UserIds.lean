import CowboyPoker.GameServer.ServerRuns

/-!
# Stored user ids along runs

* `UserIds` — what is known of the stored user ids along every run: none is longer than a 16-bit
  prefix can announce, and a context that does not exist yet has none (`userIds_step`).
* `boundUser r h` — the user that the last handshake dispatched on `r` named, read off the entries
  `h` of a run; `userId_eq_boundUser` says that this is the user id stored at `r`.
-/

namespace CowboyPoker.GameServer

open CowboyPoker.Found
open CowboyPoker.ServerCore
open UdpService

variable {ρ : Type} {B : Backend ρ}

/-! ## Stored user ids -/

/-- What is known of the stored user ids. -/
structure UserIds (s : UdpService) : Prop where
  /-- Filed contexts have been created. -/
  allocated : Allocated s
  /-- A user id fits a 16-bit length prefix. -/
  short : ∀ r, (s.heap r).userId.length < 2 ^ 16
  /-- A context that does not exist yet has no user id. -/
  fresh : ∀ r : ℕ, s.next ≤ r → (s.heap r).userId = []

/-- At the start no user id is stored. -/
theorem userIds_init : UserIds .init where
  allocated := allocated_init
  short _ := by simp [UdpService.init]
  fresh _ _ := rfl

/-- Registering changes no user id. -/
theorem UserIds.registerClient_userId {s : UdpService} (h : UserIds s) (addr : SockAddrIn)
    (now : ℤ) (r : ℕ) : ((s.registerClient addr now).2.heap r).userId = (s.heap r).userId := by
  rcases hlook : s.addrMap.lookup (sockAddrKey addr) with _ | r₀
  · rw [registerClient_of_none hlook]
    by_cases heq : r = s.next
    · subst heq
      simp only [Function.update_self]
      exact (h.fresh _ le_rfl).symm
    · simp only [Function.update_of_ne heq]
  · rw [registerClient_of_some hlook]
    by_cases heq : r = r₀
    · subst heq
      simp only [modifyCtx_heap_self]
    · simp only [modifyCtx_heap_of_ne heq]

/-- An operation that changes no user id. -/
theorem UserIds.of_userId_eq {s s' : UdpService} (h : UserIds s) (halloc : Allocated s')
    (hnext : s.next ≤ s'.next) (hsame : ∀ r, (s'.heap r).userId = (s.heap r).userId) :
    UserIds s' where
  allocated := halloc
  short r := by
    rw [hsame]
    exact h.short r
  fresh r hr := by
    rw [hsame]
    exact h.fresh r (hnext.trans hr)

/-- A registration keeps what is known of the user ids. -/
theorem UserIds.registerClient {s : UdpService} (h : UserIds s) (addr : SockAddrIn) (now : ℤ) :
    UserIds (s.registerClient addr now).2 :=
  h.of_userId_eq (h.allocated.registerClient addr now) (next_le_registerClient s addr now)
    (h.registerClient_userId addr now)

/-- The lookup and the filter change no user id. -/
theorem Arrives.userId_eq {s service : UdpService} {d : Datagram} {now : ℤ} {r : ℕ}
    (h : Arrives s d now r service) (hs : UserIds s) (r' : ℕ) :
    (service.heap r').userId = (s.heap r').userId := by
  cases h with
  | handshake => exact hs.registerClient_userId _ _ r'
  | sequenced =>
      by_cases heq : r' = r
      · subst heq
        simp only [modifyCtx_heap_self]
      · simp only [modifyCtx_heap_of_ne heq]

/-- So do the lookup and the filter. -/
theorem Arrives.userIds {s service : UdpService} {d : Datagram} {now : ℤ} {r : ℕ}
    (h : Arrives s d now r service) (hs : UserIds s) : UserIds service :=
  hs.of_userId_eq (h.allocated hs.allocated) h.next_le (h.userId_eq hs)

/-- **The step lemma.** -/
theorem userIds_step {s : Server ρ} {e : Event} (h : UserIds s.service) :
    UserIds (s.step B e).1.service := by
  have hcase := stepCase B s e
  generalize s.step B e = next at hcase ⊢
  cases hcase with
  | idle => exact h
  | handled d now later r service _ _ harr =>
      have hservice := harr.userIds h
      have hctx : ((Server.handled B s d later r service).1.service.heap r).userId =
          (handlePacket B (service.heap r) s.redis d.data d.data.length later).ctx.userId := by
        simp only [Server.handled, modifyCtx_heap_self]
      refine ⟨hservice.allocated, fun r' => ?_, fun r' hr' => ?_⟩
      · by_cases heq : r' = r
        · subst heq
          rw [hctx]
          rcases (Server.handled_spec B s d later r' service).userId with hsame | hlt
          · rw [hsame]
            exact hservice.short r'
          · exact hlt
        · rw [Server.handled_heap_of_ne heq]
          exact hservice.short r'
      · have hne : r' ≠ r := by
          have := hservice.allocated _ r harr.addrMap_eq
          rw [Server.handled_next] at hr'
          omega
        rw [Server.handled_heap_of_ne hne]
        exact hservice.fresh r' hr'
  | registered addr now => exact h.registerClient addr now
  | removed out =>
      have hframe := foldl_removeClient_frame s.service out.removed
      exact h.of_userId_eq (h.allocated.foldl_removeClient _) hframe.2.1.ge fun r => by
        simp only [hframe.1]

/-! ## The last handshake -/

/-- The user that a step bound to `r`, if it did. -/
def stepUser (r : UdpClientContextRef) (t : Entry (Server ρ) Event Output) : Option Bytes :=
  match t.input with
  | .recv d _ _ =>
      if t.output.dispatched = some r then helloUser d.data d.data.length else none
  | _ => none

/-- The user that the last handshake dispatched on `r` named, empty if there was none. -/
def boundUser (r : UdpClientContextRef) (h : List (Entry (Server ρ) Event Output)) : Bytes :=
  (h.filterMap (stepUser r)).getLast?.getD []

/-- One more entry names the user of `r` anew, or keeps the one that was named. -/
theorem boundUser_snoc (r : UdpClientContextRef) (h : List (Entry (Server ρ) Event Output))
    (t : Entry (Server ρ) Event Output) :
    boundUser r (h ++ [t]) = (stepUser r t).getD (boundUser r h) := by
  unfold boundUser
  rw [List.filterMap_append]
  rcases hstep : stepUser r t with _ | user
  · rw [List.filterMap_cons_none hstep, List.filterMap_nil, List.append_nil]
    rfl
  · rw [List.filterMap_cons_some hstep, List.filterMap_nil, List.getLast?_concat]
    rfl

/-- The stored user ids agree with the entries of the run. -/
def BoundUsers (h : List (Entry (Server ρ) Event Output)) (s : Server ρ) : Prop :=
  UserIds s.service ∧ ∀ r, (s.service.heap r).userId = boundUser r h

/-- A step keeps the stored user ids in agreement with the entries. -/
theorem boundUsers_step {h : List (Entry (Server ρ) Event Output)} {s : Server ρ} {e : Event}
    (hs : BoundUsers h s) : BoundUsers (h ++ [(server B).entry s e]) ((server B).step s e).1 := by
  refine ⟨userIds_step hs.1, fun r => ?_⟩
  rw [boundUser_snoc, ← hs.2]
  have hcase := stepCase B s e
  simp only [Transducer.entry, server]
  generalize s.step B e = next at hcase ⊢
  cases hcase with
  | idle => cases e <;> rfl
  | handled d now later r' service _ he harr =>
      subst he
      by_cases heq : r = r'
      · subst heq
        have hstep : stepUser r ⟨s, .recv d now later, (Server.handled B s d later r service).1,
            (Server.handled B s d later r service).2⟩ = helloUser d.data d.data.length :=
          if_pos rfl
        rw [hstep, ← harr.userId_eq hs.1]
        simp only [Server.handled, modifyCtx_heap_self, userId_handlePacket]
      · have hstep : stepUser r ⟨s, .recv d now later, (Server.handled B s d later r' service).1,
            (Server.handled B s d later r' service).2⟩ = none :=
          if_neg fun hr => heq (Option.some.inj hr).symm
        rw [hstep, Server.handled_heap_of_ne heq, harr.userId_eq hs.1]
        rfl
  | registered addr now _ he =>
      subst he
      exact hs.1.registerClient_userId addr now r
  | removed out hdispatched =>
      have hstep : stepUser r ⟨s, e, { s with service := out.removed.foldl removeClient s.service },
          out⟩ = none := by
        cases e <;> simp [stepUser, hdispatched]
      rw [hstep]
      simp only [(foldl_removeClient_frame s.service out.removed).1, Option.getD_none]

/-- **The stored user is the one of the last handshake.** -/
theorem userId_eq_boundUser (rc : RedisClient ρ) (es : List Event) (r : UdpClientContextRef) :
    (((server B).exec (.init rc) es).service.heap r).userId =
      boundUser r ((server B).trace (.init rc) es) := by
  have h : BoundUsers ((server B).trace (.init rc) es) ((server B).exec (.init rc) es) :=
    (server B).history_invariant (C := fun _ => True) (J := BoundUsers) ⟨userIds_init, fun _ => rfl⟩
      (fun _ _ _ hs _ => boundUsers_step hs) es fun _ _ => trivial
  exact h.2 r

end CowboyPoker.GameServer
