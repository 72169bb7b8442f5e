import CowboyPoker.Found.Retry
import CowboyPoker.ServerCore.ReceiveToken
import CowboyPoker.ServerCore.TcpStack

/-!
# Re-arming a receive and an accept

`UdpSession::RegisterRecv` and `Listener::RegisterAccept` call themselves when the operation that they
start fails at once, whatever the error is.

* `RecvShared.registerRecv`, `TcpShared.registerAccept` — a whole call, over the immediate outcomes of
  its operations, with a bound on the depth of the recursion.
* `rearmingLaw_iff` — the two return exactly when an operation succeeds at once or is pending. An error that
  stays, such as that of a closed socket, exhausts every stack.
-/

namespace CowboyPoker.ServerCore

open CowboyPoker.Found

/-! ## `UdpSession::RegisterRecv` -/

/-- A receive is under way, or has already succeeded. -/
def RecvResult.arms : RecvResult → Prop
  | .received _ _ => True
  | .failed errorCode => errorCode = wsaIoPending

namespace RecvShared

/-- One level of the recursion; `r` is how its `WSARecvFrom` ends.
Source: `ServerCore/UdpSession.cpp`, `UdpSession::RegisterRecv` -/
def registerRecvAttempt (s : RecvShared) (r : RecvResult) : Attempt RecvShared RecvShared :=
  let s := { s with recvOwner := true }
  match r with
  | .received datagram sender => .done (s.complete datagram sender)
  | .failed errorCode =>
      if errorCode = wsaIoPending then .done { s with outstanding := s.outstanding + 1 }
      else .again { s with recvOwner := false }

/-- A call of `RegisterRecv` that may be `depth` levels deep; `outcomes` are the ends of the
`WSARecvFrom`s.
Source: `ServerCore/UdpSession.cpp`, `UdpSession::RegisterRecv` -/
def registerRecv (depth : ℕ) (s : RecvShared) (outcomes : ℕ → RecvResult) : Option RecvShared :=
  retry registerRecvAttempt depth s outcomes

/-- The call returns. -/
def RegisterRecvReturns (s : RecvShared) (outcomes : ℕ → RecvResult) : Prop :=
  ∃ depth s', registerRecv depth s outcomes = some s'

/-- The outcome alone says whether a level is the last. -/
theorem registerRecvAttempt_judges :
    Judges registerRecvAttempt (fun _ => True) RecvResult.arms fun r => ¬ r.arms := by
  constructor
  case of_good =>
    intro s r hr
    cases r with
    | received datagram sender => exact ⟨_, rfl, trivial⟩
    | failed errorCode => exact ⟨_, if_pos hr, trivial⟩
  case of_repeated =>
    intro s r hr
    cases r with
    | received datagram sender => exact absurd trivial hr
    | failed errorCode => exact ⟨_, if_neg hr⟩
  case of_neither => exact fun s r hgood hagain => absurd hgood hagain

/-- `RegisterRecv` returns exactly when one of the `WSARecvFrom`s is successful or pending. -/
theorem registerRecvReturns_iff (s : RecvShared) (outcomes : ℕ → RecvResult) :
    s.RegisterRecvReturns outcomes ↔ ∃ n, (outcomes n).arms := by
  have hrule := registerRecvAttempt_judges.retry_iff s outcomes
  rw [exists_first_iff] at hrule
  simpa only [RegisterRecvReturns, registerRecv, and_true] using hrule

end RecvShared

/-! ## `Listener::RegisterAccept` -/

/-- How the two calls in one level of `RegisterAccept` end. -/
structure AcceptRound where
  /-- The registration of the new session at the completion port. -/
  createSession : CallResult
  /-- `AcceptEx`. -/
  acceptEx : CallResult

/-- A session was made, and an accept for it is under way or has already succeeded. -/
def AcceptRound.arms (r : AcceptRound) : Prop := r.createSession = .ok ∧ r.acceptEx.error = none

/-- A session was made, and its accept failed. -/
def AcceptRound.refused (r : AcceptRound) : Prop := r.createSession = .ok ∧ r.acceptEx.error ≠ none

namespace TcpShared

variable {τ β : Type}

/-- One level of the recursion; the result is `none` when `session->GetSocket()` crashes, since
`CreateSession` returned `nullptr`.
Source: `ServerCore/Listener.cpp`, `Listener::RegisterAccept` -/
def registerAcceptAttempt (acceptEvent : ℕ) (s : TcpShared τ β) (r : AcceptRound) :
    Attempt (TcpShared τ β) (Option (TcpShared τ β)) :=
  match s.createSession r.createSession with
  | none => .done none
  | some (s, session) =>
      let s := { s with acceptSession := Function.update s.acceptSession acceptEvent (some session) }
      match r.acceptEx.error with
      | none => .done (some
          { s with accepting := Function.update s.accepting acceptEvent (some session) })
      | some _ => .again s

/-- A call of `RegisterAccept` that may be `depth` levels deep.
Source: `ServerCore/Listener.cpp`, `Listener::RegisterAccept` -/
def registerAccept (acceptEvent depth : ℕ) (s : TcpShared τ β) (rounds : ℕ → AcceptRound) :
    Option (Option (TcpShared τ β)) :=
  retry (registerAcceptAttempt acceptEvent) depth s rounds

/-- The call returns. -/
def RegisterAcceptReturns (acceptEvent : ℕ) (s : TcpShared τ β) (rounds : ℕ → AcceptRound) : Prop :=
  ∃ depth s', registerAccept acceptEvent depth s rounds = some (some s')

variable {acceptEvent : ℕ} {s : TcpShared τ β} {r : AcceptRound}

/-- A level whose operation is under way is the last. -/
theorem registerAcceptAttempt_of_arms (h : r.arms) :
    ∃ s', registerAcceptAttempt acceptEvent s r = .done (some s') := by
  obtain ⟨hcreate, haccept⟩ := h
  rw [registerAcceptAttempt, hcreate, createSession, if_pos rfl]
  simp only [haccept]
  exact ⟨_, rfl⟩

/-- A level whose operation failed calls the next. -/
theorem registerAcceptAttempt_of_refused (h : r.refused) :
    ∃ s', registerAcceptAttempt acceptEvent s r = .again s' := by
  obtain ⟨hcreate, haccept⟩ := h
  obtain ⟨errorCode, herror⟩ := Option.ne_none_iff_exists'.mp haccept
  rw [registerAcceptAttempt, hcreate, createSession, if_pos rfl]
  simp only [herror]
  exact ⟨_, rfl⟩

/-- A level without a session crashes. -/
theorem registerAcceptAttempt_of_no_session (h : r.createSession ≠ .ok) :
    registerAcceptAttempt acceptEvent s r = .done none := by
  rw [registerAcceptAttempt, createSession, if_neg h]

variable (τ β acceptEvent) in
/-- The outcomes alone say whether a level is the last. -/
theorem registerAcceptAttempt_judges :
    Judges (fun s : TcpShared τ β => registerAcceptAttempt acceptEvent s) (fun r => r.isSome)
      AcceptRound.arms AcceptRound.refused := by
  constructor
  case of_good =>
    intro s r hr
    obtain ⟨s', hs'⟩ := registerAcceptAttempt_of_arms hr
    exact ⟨some s', hs', rfl⟩
  case of_repeated => exact fun s r hr => registerAcceptAttempt_of_refused hr
  case of_neither =>
    intro s r hgood hagain
    have hcreate : r.createSession ≠ .ok := by
      intro hcreate
      by_cases haccept : r.acceptEx.error = none
      · exact hgood ⟨hcreate, haccept⟩
      · exact hagain ⟨hcreate, haccept⟩
    exact ⟨none, registerAcceptAttempt_of_no_session hcreate, by simp⟩

/-- `RegisterAccept` returns exactly when one of the `AcceptEx`s is successful or pending, and a session
could be made for it and for every one before. -/
theorem registerAcceptReturns_iff (acceptEvent : ℕ) (s : TcpShared τ β) (rounds : ℕ → AcceptRound) :
    RegisterAcceptReturns acceptEvent s rounds ↔
      ∃ n, (rounds n).acceptEx.error = none ∧ ∀ m ≤ n, (rounds m).createSession = .ok := by
  have hrule := (registerAcceptAttempt_judges τ β acceptEvent).retry_iff s rounds
  constructor
  · rintro ⟨depth, s', hs'⟩
    obtain ⟨n, harms, hbefore⟩ := hrule.mp ⟨depth, some s', hs', rfl⟩
    refine ⟨n, harms.2, fun m hm => ?_⟩
    rcases Nat.lt_or_eq_of_le hm with hlt | rfl
    · exact (hbefore m hlt).1
    · exact harms.1
  · rintro ⟨n, haccept, hcreate⟩
    let accepts : AcceptRound → Prop := fun r => r.acceptEx.error = none
    obtain ⟨first, hfirst, hbefore⟩ : ∃ n, accepts (rounds n) ∧ ∀ m < n, ¬ accepts (rounds m) :=
      exists_first_iff.mpr ⟨n, haccept⟩
    have hle : first ≤ n := Nat.le_of_not_lt fun hlt => hbefore n hlt haccept
    obtain ⟨depth, r, hr, hsome⟩ := hrule.mpr ⟨first, ⟨hcreate first hle, hfirst⟩,
      fun m hm => ⟨hcreate m (by omega), hbefore m hm⟩⟩
    obtain ⟨s', rfl⟩ := Option.isSome_iff_exists.mp hsome
    exact ⟨depth, s', hr⟩

end TcpShared

/-! ## Both -/

section Law

variable {τ β : Type}

/-- Re-arming always returns: a receive for all outcomes of its `WSARecvFrom`s, an accept for all outcomes
of its `AcceptEx`s when the sessions can be made. -/
def RearmingLaw (s : RecvShared) (outcomes : ℕ → RecvResult) (acceptEvent : ℕ) (l : TcpShared τ β)
    (rounds : ℕ → AcceptRound) : Prop :=
  s.RegisterRecvReturns outcomes ∧
    ((∀ n, (rounds n).createSession = .ok) → l.RegisterAcceptReturns acceptEvent rounds)

/-- **Re-arming returns exactly when an operation gets under way.** A receive and an accept return
exactly when one of their operations is successful or pending, however many errors come first. -/
theorem rearmingLaw_iff (s : RecvShared) (outcomes : ℕ → RecvResult) (acceptEvent : ℕ)
    (l : TcpShared τ β) (rounds : ℕ → AcceptRound) :
    RearmingLaw s outcomes acceptEvent l rounds ↔
      (∃ n, (outcomes n).arms) ∧
        ((∀ n, (rounds n).createSession = .ok) → ∃ n, (rounds n).acceptEx.error = none) := by
  rw [RearmingLaw, RecvShared.registerRecvReturns_iff]
  refine and_congr_right fun _ => forall_congr' fun hcreate => ?_
  rw [TcpShared.registerAcceptReturns_iff]
  constructor
  · exact fun ⟨n, haccept, _⟩ => ⟨n, haccept⟩
  · exact fun ⟨n, haccept⟩ => ⟨n, haccept, fun m _ => hcreate m⟩

/-- `WSAENOTSOCK`, which every operation on a closed socket ends with. -/
def wsaENotSock : ℕ := 10038

/-- On sockets that are closed neither of the two returns. -/
theorem not_rearmingLaw_closed :
    ¬ (RecvShared.RegisterRecvReturns {} fun _ => .failed wsaENotSock) ∧
      ¬ TcpShared.RegisterAcceptReturns 0 ({} : TcpShared Unit Unit)
        (fun _ => ⟨.ok, .failed wsaENotSock⟩) ∧
      ¬ RearmingLaw {} (fun _ => .failed wsaENotSock) 0 ({} : TcpShared Unit Unit)
        fun _ => ⟨.ok, .failed wsaENotSock⟩ := by
  have hrecv : ¬ (RecvShared.RegisterRecvReturns {} fun _ => .failed wsaENotSock) := by
    rw [RecvShared.registerRecvReturns_iff]
    rintro ⟨n, harms⟩
    exact absurd (show wsaENotSock = wsaIoPending from harms) (by decide)
  refine ⟨hrecv, ?_, fun h => hrecv h.1⟩
  rw [TcpShared.registerAcceptReturns_iff]
  rintro ⟨n, haccept, _⟩
  exact absurd (show (CallResult.failed wsaENotSock).error = none from haccept) (by decide)

end Law

end CowboyPoker.ServerCore
