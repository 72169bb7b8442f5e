import CowboyPoker.Found.CriticalSection
import CowboyPoker.ServerCore.Lock
import CowboyPoker.ServerCore.UdpService

/-!
# The methods of `UdpService`, step by step

Each method that takes the lock of the service, cut at every access to a map, to the counter of the
session ids and to a shared context. A broadcast sends one datagram a step.

* `RegistryCall`, `RegistryResult` — the calls and what they return. `RegistryCall.perform` — a call as a
  whole, by the functions of `UdpService`.
* `RegistryPos`, `RegistryCall.step` — the positions in the methods, and the step from each.
  `registrySection` — the methods as code that runs under a lock.
* `registrySection_computes_iff` — without interruption, the steps compute the call.
* `ContextWrite` — the writes to a context that the handlers make without a lock.
-/

namespace CowboyPoker.ServerCore

open CowboyPoker.Found
open UdpService

variable {β : Type}

/-! ## Calls -/

/-- A call of a method that takes the lock of the service. -/
inductive RegistryCall (β : Type)
  /-- `RegisterClient`. -/
  | registerClient (addr : SockAddrIn)
  /-- `RemoveClient`. -/
  | removeClient (sessionId : UInt64)
  /-- `FindByAddr`. -/
  | findByAddr (addr : SockAddrIn)
  /-- `FindById`. -/
  | findById (sessionId : UInt64)
  /-- `Broadcast`. -/
  | broadcast (buf : β)
  /-- `BroadcastExcept`. -/
  | broadcastExcept (excludeSessionId : UInt64) (buf : β)

/-- What a call returns, and the datagrams that it sent. -/
inductive RegistryResult (β : Type)
  /-- A pointer to a context, or null. -/
  | context (r : Option UdpClientContextRef)
  /-- Nothing. -/
  | done
  /-- Nothing, after these datagrams. -/
  | sent (datagrams : List (SockAddrIn × β))

/-- The contexts that the caller gets hold of. -/
def RegistryResult.contexts : RegistryResult β → List UdpClientContextRef
  | context r => r.toList
  | _ => []

namespace RegistryCall

/-- The guard that the method constructs.
Source: `ServerCore/UdpService.cpp`, `READ_LOCK` and `WRITE_LOCK` -/
def mode : RegistryCall β → LockMode
  | registerClient _ => .write
  | removeClient _ => .write
  | _ => .read

/-- The call as a whole, when the clock shows `now`. -/
def perform (s : UdpService) (now : ℤ) : RegistryCall β → UdpService × RegistryResult β
  | registerClient addr => ((s.registerClient addr now).2, .context (s.registerClient addr now).1)
  | removeClient sessionId => (s.removeClient sessionId, .done)
  | findByAddr addr => (s, .context (s.findByAddr addr))
  | findById sessionId => (s, .context (s.findById sessionId))
  | broadcast buf => (s, .sent (s.broadcast buf))
  | broadcastExcept excludeSessionId buf => (s, .sent (s.broadcastExcept excludeSessionId buf))

end RegistryCall

/-! ## Steps -/

/-- A position in a method, behind the construction of its guard. -/
inductive RegistryPos (β : Type)
  /-- `RegisterClient`, at the search in `_addrMap`. -/
  | registerFind
  /-- `RegisterClient`, at the assignment to `lastAliveMs` of the context that was found. -/
  | registerRefresh (r : UdpClientContextRef)
  /-- `RegisterClient`, at `GenerateSessionId`. -/
  | registerId
  /-- `RegisterClient`, at the fields of the new context, which nobody else knows yet. -/
  | registerNew (sessionId : UInt64)
  /-- `RegisterClient`, at the insertion into `_idMap`. -/
  | registerIdMap (r : UdpClientContextRef)
  /-- `RegisterClient`, at the insertion into `_addrMap`. -/
  | registerAddrMap (r : UdpClientContextRef)
  /-- `RemoveClient`, at the search in `_idMap`. -/
  | removeFind
  /-- `RemoveClient`, at the removal from `_addrMap`. -/
  | removeAddr (r : UdpClientContextRef)
  /-- `RemoveClient`, at the removal from `_idMap`. -/
  | removeId
  /-- `FindByAddr`, at the search in `_addrMap`. -/
  | findAddr
  /-- `FindByAddr`, at the comparison of the addresses. -/
  | compareAddr (r : UdpClientContextRef)
  /-- `FindById`, at the search in `_idMap`. -/
  | findId
  /-- A broadcast, with `n` entries of `_idMap` behind it. -/
  | sendNext (n : ℕ) (datagrams : List (SockAddrIn × β))

namespace RegistryCall

/-- The position behind the guard. -/
def start : RegistryCall β → RegistryPos β
  | registerClient _ => .registerFind
  | removeClient _ => .removeFind
  | findByAddr _ => .findAddr
  | findById _ => .findId
  | broadcast _ => .sendNext 0 []
  | broadcastExcept _ _ => .sendNext 0 []

variable (s : UdpService) (now : ℤ)

/-- Source: `ServerCore/UdpService.cpp`, `UdpService::RegisterClient` -/
def registerClientStep (addr : SockAddrIn) :
    RegistryPos β → UdpService × (RegistryPos β ⊕ RegistryResult β)
  | .registerFind =>
      match s.addrMap.lookup (sockAddrKey addr) with
      | some r => (s, .inl (.registerRefresh r))
      | none => (s, .inl .registerId)
  | .registerRefresh r =>
      (s.modifyCtx r fun ctx => { ctx with lastAliveMs := now }, .inr (.context (some r)))
  | .registerId => (s.generateSessionId.2, .inl (.registerNew s.generateSessionId.1))
  | .registerNew sessionId =>
      ({ s with
          heap := Function.update s.heap s.next { sessionId, addr, lastAliveMs := now }
          next := s.next + 1 }, .inl (.registerIdMap s.next))
  | .registerIdMap r =>
      ({ s with idMap := s.idMap.insert (s.heap r).sessionId r }, .inl (.registerAddrMap r))
  | .registerAddrMap r =>
      ({ s with addrMap := s.addrMap.insert (sockAddrKey addr) r }, .inr (.context (some r)))
  | p => (s, .inl p)

/-- Source: `ServerCore/UdpService.cpp`, `UdpService::RemoveClient` -/
def removeClientStep (sessionId : UInt64) :
    RegistryPos β → UdpService × (RegistryPos β ⊕ RegistryResult β)
  | .removeFind =>
      match s.idMap.lookup sessionId with
      | none => (s, .inr .done)
      | some r => (s, .inl (.removeAddr r))
  | .removeAddr r =>
      ({ s with addrMap := s.addrMap.erase (sockAddrKey (s.heap r).addr) }, .inl .removeId)
  | .removeId => ({ s with idMap := s.idMap.erase sessionId }, .inr .done)
  | p => (s, .inl p)

/-- Source: `ServerCore/UdpService.cpp`, `UdpService::FindByAddr` -/
def findByAddrStep (addr : SockAddrIn) : RegistryPos β → RegistryPos β ⊕ RegistryResult β
  | .findAddr =>
      match s.addrMap.lookup (sockAddrKey addr) with
      | none => .inr (.context none)
      | some r => .inl (.compareAddr r)
  | .compareAddr r =>
      .inr (.context
        (if (s.heap r).addr.sAddr = addr.sAddr ∧ (s.heap r).addr.sinPort = addr.sinPort then some r
        else none))
  | p => .inl p

/-- Source: `ServerCore/UdpService.cpp`, `UdpService::FindById` -/
def findByIdStep (sessionId : UInt64) : RegistryPos β → RegistryPos β ⊕ RegistryResult β
  | .findId => .inr (.context (s.idMap.lookup sessionId))
  | p => .inl p

/-- A broadcast that passes over the ids in `skip`.
Source: `ServerCore/UdpService.cpp`, `UdpService::Broadcast`, `UdpService::BroadcastExcept` -/
def broadcastStep (skip : UInt64 → Bool) (buf : β) : RegistryPos β → RegistryPos β ⊕ RegistryResult β
  | .sendNext n datagrams =>
      match s.idMap.entries[n]? with
      | none => .inr (.sent datagrams)
      | some kv =>
          .inl (.sendNext (n + 1)
            (if skip kv.1 then datagrams else datagrams ++ [((s.heap kv.2).addr, buf)]))
  | p => .inl p

/-- One step of a method; `now` is what `GetTickCount64` returns. A method never gets to the positions of
another. -/
def step (c : RegistryCall β) (p : RegistryPos β) :
    UdpService × (RegistryPos β ⊕ RegistryResult β) :=
  match c with
  | registerClient addr => registerClientStep s now addr p
  | removeClient sessionId => removeClientStep s sessionId p
  | findByAddr addr => (s, findByAddrStep s addr p)
  | findById sessionId => (s, findByIdStep s sessionId p)
  | broadcast buf => (s, broadcastStep s (fun _ => false) buf p)
  | broadcastExcept excludeSessionId buf =>
      (s, broadcastStep s (fun id => id = excludeSessionId) buf p)

variable {s now}

/-- A method that reads leaves the registry as it is. -/
theorem step_of_read {c : RegistryCall β} {p : RegistryPos β} (h : c.mode ≠ .write) :
    (c.step s now p).1 = s := by
  cases c with
  | registerClient addr => exact absurd rfl h
  | removeClient sessionId => exact absurd rfl h
  | _ => rfl

end RegistryCall

/-- The methods as code that runs under a lock. -/
def registrySection (β : Type) :
    Section UdpService (RegistryCall β) (RegistryPos β) (RegistryResult β) ℤ where
  writes c := c.mode = .write
  start := RegistryCall.start
  step c s p now := c.step s now p
  frame _ _ _ _ h := RegistryCall.step_of_read h

/-! ## Without interruption -/

/-- The datagrams of a broadcast for the first `n` entries. -/
def sentFor (a : UdpService) (skip : UInt64 → Bool) (buf : β) (n : ℕ) : List (SockAddrIn × β) :=
  ((a.idMap.entries.take n).filter fun kv => !skip kv.1).map fun kv => ((a.heap kv.2).addr, buf)

/-- What `RegisterClient` has done to `a` when it has allocated the context, at the time `now`. -/
def allocated (a : UdpService) (addr : SockAddrIn) (now : ℤ) : UdpService :=
  { a with
    heap := Function.update a.heap a.next { sessionId := a.sCounter, addr, lastAliveMs := now }
    next := a.next + 1
    sCounter := a.sCounter + 1 }

/-- What a method that started in `a` knows of the state at a position. -/
def Describes (a s : UdpService) : RegistryCall β → RegistryPos β → Prop
  | .registerClient _, .registerFind => s = a
  | .registerClient addr, .registerRefresh r => s = a ∧ a.addrMap.lookup (sockAddrKey addr) = some r
  | .registerClient addr, .registerId => s = a ∧ a.addrMap.lookup (sockAddrKey addr) = none
  | .registerClient addr, .registerNew sessionId =>
      s = { a with sCounter := a.sCounter + 1 } ∧ sessionId = a.sCounter ∧
        a.addrMap.lookup (sockAddrKey addr) = none
  | .registerClient addr, .registerIdMap r =>
      r = a.next ∧ a.addrMap.lookup (sockAddrKey addr) = none ∧ ∃ now, s = allocated a addr now
  | .registerClient addr, .registerAddrMap r =>
      r = a.next ∧ a.addrMap.lookup (sockAddrKey addr) = none ∧
        ∃ now, s = { allocated a addr now with idMap := a.idMap.insert a.sCounter a.next }
  | .removeClient _, .removeFind => s = a
  | .removeClient sessionId, .removeAddr r => s = a ∧ a.idMap.lookup sessionId = some r
  | .removeClient sessionId, .removeId =>
      ∃ r, a.idMap.lookup sessionId = some r ∧
        s = { a with addrMap := a.addrMap.erase (sockAddrKey (a.heap r).addr) }
  | .findByAddr _, .findAddr => s = a
  | .findByAddr addr, .compareAddr r => s = a ∧ a.addrMap.lookup (sockAddrKey addr) = some r
  | .findById _, .findId => s = a
  | .broadcast buf, .sendNext n datagrams =>
      s = a ∧ n ≤ a.idMap.entries.length ∧ datagrams = sentFor a (fun _ => false) buf n
  | .broadcastExcept excludeSessionId buf, .sendNext n datagrams =>
      s = a ∧ n ≤ a.idMap.entries.length ∧ datagrams = sentFor a (fun id => id = excludeSessionId) buf n
  | _, _ => False

section compute

variable {a s s' : UdpService} {c : RegistryCall β} {p p' : RegistryPos β} {now : ℤ}

/-- A method that has not begun has done nothing. -/
theorem describes_start (a : UdpService) (c : RegistryCall β) : Describes a a c c.start := by
  cases c with
  | broadcast buf => exact ⟨rfl, Nat.zero_le _, rfl⟩
  | broadcastExcept excludeSessionId buf => exact ⟨rfl, Nat.zero_le _, rfl⟩
  | _ => rfl

/-- One more entry. -/
theorem sentFor_succ {skip : UInt64 → Bool} {buf : β} {n : ℕ} {kv : Sigma fun _ : UInt64 => ℕ}
    (h : a.idMap.entries[n]? = some kv) :
    sentFor a skip buf (n + 1) =
      if skip kv.1 then sentFor a skip buf n
      else sentFor a skip buf n ++ [((a.heap kv.2).addr, buf)] := by
  unfold sentFor
  rw [List.take_add_one, h, Option.toList_some, List.filter_append, List.map_append]
  by_cases hskip : skip kv.1
  · rw [if_pos hskip, List.filter_singleton, hskip]
    exact List.append_nil _
  · rw [if_neg hskip, List.filter_singleton, Bool.eq_false_iff.mpr hskip]
    rfl

/-- The whole of a broadcast. -/
theorem sentFor_length (a : UdpService) (skip : UInt64 → Bool) (buf : β) :
    sentFor a skip buf a.idMap.entries.length =
      (a.idMap.entries.filter fun kv => !skip kv.1).map fun kv => ((a.heap kv.2).addr, buf) := by
  rw [sentFor, List.take_length]

section broadcast

variable {skip : UInt64 → Bool} {buf : β} {n : ℕ} (hn : n ≤ a.idMap.entries.length)
include hn

/-- One step of a broadcast. -/
theorem broadcastStep_sendNext :
    RegistryCall.broadcastStep a skip buf (.sendNext n (sentFor a skip buf n)) =
      if n = a.idMap.entries.length then
        .inr (.sent (sentFor a skip buf a.idMap.entries.length))
      else .inl (.sendNext (n + 1) (sentFor a skip buf (n + 1))) := by
  unfold RegistryCall.broadcastStep
  rcases hkv : a.idMap.entries[n]? with _ | kv
  · have hlen := List.getElem?_eq_none_iff.mp hkv
    obtain rfl := Nat.le_antisymm hn hlen
    rw [if_pos rfl]
    simp only [hkv]
  · obtain ⟨hlt, -⟩ := List.getElem?_eq_some_iff.mp hkv
    rw [if_neg hlt.ne, sentFor_succ hkv]
    simp only [hkv]

/-- A broadcast that goes on has sent to one client more, or passed it over. -/
theorem broadcastStep_inl
    (h : RegistryCall.broadcastStep a skip buf (.sendNext n (sentFor a skip buf n)) = .inl p') :
    n < a.idMap.entries.length ∧ p' = .sendNext (n + 1) (sentFor a skip buf (n + 1)) := by
  rw [broadcastStep_sendNext hn] at h
  split at h
  · cases h
  · cases h
    exact ⟨by omega, rfl⟩

/-- A broadcast that returns has sent to every client that it does not pass over. -/
theorem broadcastStep_inr {r : RegistryResult β}
    (h : RegistryCall.broadcastStep a skip buf (.sendNext n (sentFor a skip buf n)) = .inr r) :
    r = .sent ((a.idMap.entries.filter fun kv => !skip kv.1).map fun kv =>
      ((a.heap kv.2).addr, buf)) := by
  rw [broadcastStep_sendNext hn] at h
  split at h
  · cases h
    rw [sentFor_length]
  · cases h

end broadcast

/-- A step of `RegisterClient` does what the position behind it says. -/
theorem Describes.registerClient {addr : SockAddrIn} (h : Describes a s (.registerClient addr) p)
    (hstep : RegistryCall.registerClientStep s now addr p = (s', .inl p')) :
    Describes a s' (.registerClient addr) p' := by
  cases p with
  | registerFind =>
      obtain rfl : s = a := h
      unfold RegistryCall.registerClientStep at hstep
      dsimp only at hstep
      rcases hlook : s.addrMap.lookup (sockAddrKey addr) with _ | r
      · rw [hlook] at hstep
        cases hstep
        exact ⟨rfl, hlook⟩
      · rw [hlook] at hstep
        cases hstep
        exact ⟨rfl, hlook⟩
  | registerRefresh r => cases hstep
  | registerId =>
      obtain ⟨rfl, hlook⟩ := h
      cases hstep
      exact ⟨rfl, rfl, hlook⟩
  | registerNew sessionId =>
      obtain ⟨rfl, rfl, hlook⟩ := h
      cases hstep
      exact ⟨rfl, hlook, now, rfl⟩
  | registerIdMap r =>
      obtain ⟨rfl, hlook, time, rfl⟩ := h
      cases hstep
      refine ⟨rfl, hlook, time, ?_⟩
      simp only [allocated, Function.update_self]
  | registerAddrMap r => cases hstep
  | _ => exact h.elim

/-- A step of `RemoveClient` does what the position behind it says. -/
theorem Describes.removeClient {sessionId : UInt64} (h : Describes a s (.removeClient sessionId) p)
    (hstep : RegistryCall.removeClientStep s sessionId p = (s', .inl p')) :
    Describes a s' (.removeClient sessionId) p' := by
  cases p with
  | removeFind =>
      obtain rfl : s = a := h
      unfold RegistryCall.removeClientStep at hstep
      dsimp only at hstep
      rcases hlook : s.idMap.lookup sessionId with _ | r
      · rw [hlook] at hstep
        cases hstep
      · rw [hlook] at hstep
        cases hstep
        exact ⟨rfl, hlook⟩
  | removeAddr r =>
      obtain ⟨rfl, hlook⟩ := h
      cases hstep
      exact ⟨r, hlook, rfl⟩
  | removeId => cases hstep
  | _ => exact h.elim

/-- **The step lemma.** -/
theorem Describes.step (h : Describes a s c p) (hstep : c.step s now p = (s', .inl p')) :
    Describes a s' c p' := by
  cases c with
  | registerClient addr => exact h.registerClient hstep
  | removeClient sessionId => exact h.removeClient hstep
  | findByAddr addr =>
      cases p with
      | findAddr =>
          obtain rfl : s = a := h
          obtain ⟨rfl, hnext⟩ := Prod.mk.inj hstep
          unfold RegistryCall.findByAddrStep at hnext
          dsimp only at hnext
          rcases hlook : s.addrMap.lookup (sockAddrKey addr) with _ | r
          · rw [hlook] at hnext
            cases hnext
          · rw [hlook] at hnext
            cases hnext
            exact ⟨rfl, hlook⟩
      | compareAddr r => cases hstep
      | _ => exact h.elim
  | findById sessionId =>
      cases p with
      | findId => cases hstep
      | _ => exact h.elim
  | broadcast buf =>
      cases p with
      | sendNext n datagrams =>
          obtain ⟨rfl, hn, rfl⟩ := h
          obtain ⟨rfl, hnext⟩ := Prod.mk.inj hstep
          obtain ⟨hlt, rfl⟩ := broadcastStep_inl hn hnext
          exact ⟨rfl, hlt, rfl⟩
      | _ => exact h.elim
  | broadcastExcept excludeSessionId buf =>
      cases p with
      | sendNext n datagrams =>
          obtain ⟨rfl, hn, rfl⟩ := h
          obtain ⟨rfl, hnext⟩ := Prod.mk.inj hstep
          obtain ⟨hlt, rfl⟩ := broadcastStep_inl hn hnext
          exact ⟨rfl, hlt, rfl⟩
      | _ => exact h.elim

/-- A method knows of its state what its position says. -/
theorem describes_of_reaches (h : (registrySection β).Reaches c a s p) : Describes a s c p := by
  induction h with
  | start => exact describes_start a c
  | step now _ hstep ih => exact ih.step hstep

/-- What a method returns is what the call returns. -/
theorem Describes.return (h : Describes a s c p) {r : RegistryResult β}
    (hstep : c.step s now p = (s', .inr r)) : ∃ time, c.perform a time = (s', r) := by
  cases c with
  | registerClient addr =>
      cases p with
      | registerFind =>
          unfold RegistryCall.step RegistryCall.registerClientStep at hstep
          dsimp only at hstep
          split at hstep <;> cases hstep
      | registerRefresh r =>
          obtain ⟨rfl, hlook⟩ := h
          cases hstep
          exact ⟨now, by rw [RegistryCall.perform, registerClient_of_some hlook]⟩
      | registerId => cases hstep
      | registerNew sessionId => cases hstep
      | registerIdMap r => cases hstep
      | registerAddrMap r =>
          obtain ⟨rfl, hlook, time, rfl⟩ := h
          cases hstep
          exact ⟨time, by rw [RegistryCall.perform, registerClient_of_none hlook]; rfl⟩
      | _ => exact h.elim
  | removeClient sessionId =>
      cases p with
      | removeFind =>
          obtain rfl : s = a := h
          unfold RegistryCall.step RegistryCall.removeClientStep at hstep
          dsimp only at hstep
          rcases hlook : s.idMap.lookup sessionId with _ | r
          · rw [hlook] at hstep
            cases hstep
            exact ⟨now, by rw [RegistryCall.perform, removeClient_of_none hlook]⟩
          · rw [hlook] at hstep
            cases hstep
      | removeAddr r => cases hstep
      | removeId =>
          obtain ⟨r, hlook, rfl⟩ := h
          cases hstep
          exact ⟨now, by rw [RegistryCall.perform, removeClient_of_some hlook]⟩
      | _ => exact h.elim
  | findByAddr addr =>
      cases p with
      | findAddr =>
          obtain rfl : s = a := h
          obtain ⟨rfl, hnext⟩ := Prod.mk.inj hstep
          unfold RegistryCall.findByAddrStep at hnext
          dsimp only at hnext
          rcases hlook : s.addrMap.lookup (sockAddrKey addr) with _ | r
          · rw [hlook] at hnext
            cases hnext
            exact ⟨now, by simp only [RegistryCall.perform, UdpService.findByAddr, hlook]⟩
          · rw [hlook] at hnext
            cases hnext
      | compareAddr r =>
          obtain ⟨rfl, hlook⟩ := h
          cases hstep
          exact ⟨now, by simp only [RegistryCall.perform, UdpService.findByAddr, hlook]⟩
      | _ => exact h.elim
  | findById sessionId =>
      cases p with
      | findId =>
          obtain rfl : s = a := h
          cases hstep
          exact ⟨now, rfl⟩
      | _ => exact h.elim
  | broadcast buf =>
      cases p with
      | sendNext n datagrams =>
          obtain ⟨rfl, hn, rfl⟩ := h
          obtain ⟨rfl, hnext⟩ := Prod.mk.inj hstep
          obtain rfl := broadcastStep_inr hn hnext
          refine ⟨now, ?_⟩
          rw [RegistryCall.perform, UdpService.broadcast]
          simp only [Bool.not_false, List.filter_true]
      | _ => exact h.elim
  | broadcastExcept excludeSessionId buf =>
      cases p with
      | sendNext n datagrams =>
          obtain ⟨rfl, hn, rfl⟩ := h
          obtain ⟨rfl, hnext⟩ := Prod.mk.inj hstep
          obtain rfl := broadcastStep_inr hn hnext
          refine ⟨now, ?_⟩
          rw [RegistryCall.perform, UdpService.broadcastExcept]
          simp only [decide_not]
      | _ => exact h.elim

/-! ### The other direction -/

open RegistryCall in
/-- `RegisterClient` gets to its result. -/
theorem computes_registerClient (a : UdpService) (addr : SockAddrIn) (now : ℤ) :
    (registrySection β).Computes (.registerClient addr) a (a.registerClient addr now).2
      (.context (some (a.registerClient addr now).1)) := by
  have hfind := Section.Reaches.start (S := registrySection β) (i := .registerClient addr) (a := a)
  rcases hlook : a.addrMap.lookup (sockAddrKey addr) with _ | r
  · have hmiss : registerClientStep (β := β) a now addr .registerFind = (a, .inl .registerId) := by
      unfold registerClientStep
      simp only [hlook]
    have hid := (hfind.step now hmiss).step now rfl
    have hfiled := (hid.step now rfl).step now rfl
    rw [registerClient_of_none hlook]
    refine ⟨_, _, now, hfiled, ?_⟩
    simp only [registrySection, RegistryCall.step, registerClientStep, generateSessionId,
      Function.update_self]
  · have hhit : registerClientStep (β := β) a now addr .registerFind =
        (a, .inl (.registerRefresh r)) := by
      unfold registerClientStep
      simp only [hlook]
    rw [registerClient_of_some hlook]
    exact ⟨_, _, now, hfind.step now hhit, rfl⟩

open RegistryCall in
/-- `RemoveClient` gets to its end. -/
theorem computes_removeClient (a : UdpService) (sessionId : UInt64) :
    (registrySection β).Computes (.removeClient sessionId) a (a.removeClient sessionId) .done := by
  have hfind := Section.Reaches.start (S := registrySection β) (i := .removeClient sessionId) (a := a)
  rcases hlook : a.idMap.lookup sessionId with _ | r
  · have hmiss : removeClientStep (β := β) a sessionId .removeFind = (a, .inr .done) := by
      unfold removeClientStep
      simp only [hlook]
    rw [removeClient_of_none hlook]
    exact ⟨_, _, 0, hfind, hmiss⟩
  · have hhit : removeClientStep (β := β) a sessionId .removeFind = (a, .inl (.removeAddr r)) := by
      unfold removeClientStep
      simp only [hlook]
    rw [removeClient_of_some hlook]
    exact ⟨_, _, 0, (hfind.step 0 hhit).step 0 rfl, rfl⟩

/-- `FindByAddr` gets to its result. -/
theorem computes_findByAddr (a : UdpService) (addr : SockAddrIn) :
    (registrySection β).Computes (.findByAddr addr) a a (.context (a.findByAddr addr)) := by
  have hfind := Section.Reaches.start (S := registrySection β) (i := .findByAddr addr) (a := a)
  rcases hlook : a.addrMap.lookup (sockAddrKey addr) with _ | r
  · refine ⟨_, _, 0, hfind, ?_⟩
    simp only [registrySection, RegistryCall.step, RegistryCall.start, RegistryCall.findByAddrStep,
      UdpService.findByAddr, hlook]
  · have hhit : RegistryCall.findByAddrStep (β := β) a addr .findAddr = .inl (.compareAddr r) := by
      unfold RegistryCall.findByAddrStep
      simp only [hlook]
    refine ⟨_, _, 0, hfind.step 0 (congrArg (Prod.mk a) hhit), ?_⟩
    simp only [registrySection, RegistryCall.step, RegistryCall.findByAddrStep,
      UdpService.findByAddr, hlook]

/-- A broadcast gets to its end. -/
theorem computes_broadcast (a : UdpService) {c : RegistryCall β} {skip : UInt64 → Bool} {buf : β}
    (hstart : c.start = .sendNext 0 [])
    (hstep : ∀ p, c.step a 0 p = (a, RegistryCall.broadcastStep a skip buf p)) :
    (registrySection β).Computes c a a (.sent (sentFor a skip buf a.idMap.entries.length)) := by
  have hreaches : ∀ n ≤ a.idMap.entries.length,
      (registrySection β).Reaches c a a (.sendNext n (sentFor a skip buf n)) := by
    intro n
    induction n with
    | zero =>
        intro _
        have hzero : sentFor a skip buf 0 = [] := rfl
        rw [hzero, ← hstart]
        exact .start
    | succ n ih =>
        intro hn
        refine (ih (by omega)).step 0 ((hstep _).trans ?_)
        rw [broadcastStep_sendNext (by omega), if_neg (by omega)]
  refine ⟨_, _, 0, hreaches _ le_rfl, (hstep _).trans ?_⟩
  rw [broadcastStep_sendNext le_rfl, if_pos rfl]

/-- **The methods compute the calls**: without interruption the steps of a method end in a state with a
result just when the call does, at some reading of the clock. -/
theorem registrySection_computes_iff {r : RegistryResult β} :
    (registrySection β).Computes c a s r ↔ ∃ now, c.perform a now = (s, r) := by
  constructor
  · rintro ⟨s', p, now, hreaches, hstep⟩
    exact (describes_of_reaches hreaches).return hstep
  · rintro ⟨now, hperform⟩
    cases c with
    | registerClient addr =>
        cases hperform
        exact computes_registerClient a addr now
    | removeClient sessionId =>
        cases hperform
        exact computes_removeClient a sessionId
    | findByAddr addr =>
        cases hperform
        exact computes_findByAddr a addr
    | findById sessionId =>
        cases hperform
        exact ⟨_, _, 0, .start, rfl⟩
    | broadcast buf =>
        cases hperform
        have hcomputes := computes_broadcast a (c := .broadcast buf) rfl fun _ => rfl
        rw [sentFor_length] at hcomputes
        simpa only [UdpService.broadcast, Bool.not_false, List.filter_true] using hcomputes
    | broadcastExcept excludeSessionId buf =>
        cases hperform
        have hcomputes := computes_broadcast a (c := .broadcastExcept excludeSessionId buf) rfl
          fun _ => rfl
        rw [sentFor_length] at hcomputes
        simpa only [UdpService.broadcastExcept, decide_not] using hcomputes

end compute

/-! ## Writes without a lock -/

/-- A write to a field of a context.
Source: `GameServer/UdpGameSession.cpp`, `GameServer/UdpServerPacketHandler.cpp` -/
inductive ContextWrite
  | lastSeq (sequence : UInt32)
  | lastAliveMs (now : ℤ)
  | userId (userId : Bytes)

/-- The context after the write. -/
def ContextWrite.apply (w : ContextWrite) (ctx : UdpClientContext) : UdpClientContext :=
  match w with
  | .lastSeq sequence => { ctx with lastSeq := sequence }
  | .lastAliveMs now => { ctx with lastAliveMs := now }
  | .userId user => { ctx with userId := user }

/-- The service after a write to the context at `r`. -/
def ContextWrite.perform (w : ContextWrite) (r : UdpClientContextRef) (s : UdpService) : UdpService :=
  s.modifyCtx r w.apply

section writes

variable {w : ContextWrite} {r r' : UdpClientContextRef} {s s' : UdpService} {now : ℤ}
  {p p' : RegistryPos β}

/-- A write from outside keeps the id of the context. -/
theorem ContextWrite.apply_sessionId (w : ContextWrite) (ctx : UdpClientContext) :
    (w.apply ctx).sessionId = ctx.sessionId := by
  cases w <;> rfl

/-- A write from outside keeps the address of the context. -/
theorem ContextWrite.apply_addr (w : ContextWrite) (ctx : UdpClientContext) :
    (w.apply ctx).addr = ctx.addr := by
  cases w <;> rfl

/-- A write changes neither the id nor the address of a context. -/
theorem ContextWrite.heap_perform (w : ContextWrite) (r r' : UdpClientContextRef) (s : UdpService) :
    ((w.perform r s).heap r').sessionId = (s.heap r').sessionId ∧
      ((w.perform r s).heap r').addr = (s.heap r').addr := by
  unfold ContextWrite.perform
  by_cases hr : r' = r
  · subst hr
    rw [modifyCtx_heap_self]
    exact ⟨w.apply_sessionId _, w.apply_addr _⟩
  · rw [modifyCtx_heap_of_ne hr]
    exact ⟨rfl, rfl⟩

/-- A write to a context and the allocation of another one commute. -/
theorem ContextWrite.update_perform (hr : r ≠ r') (ctx : UdpClientContext) :
    Function.update (w.perform r s).heap r' ctx =
      Function.update (Function.update s.heap r' ctx) r (w.apply (Function.update s.heap r' ctx r)) := by
  rw [Function.update_of_ne hr]
  exact Function.update_comm hr _ _ _

/-- A step of `RegisterClient` commutes with a write to a context that was created before. -/
theorem registerClientStep_write {addr : SockAddrIn} (hr : r < s.next)
    (hstep : RegistryCall.registerClientStep s now addr p = (s', .inl p')) :
    RegistryCall.registerClientStep (w.perform r s) now addr p = (w.perform r s', .inl p') ∧
      s.next ≤ s'.next := by
  cases p with
  | registerFind =>
      unfold RegistryCall.registerClientStep at hstep ⊢
      have hmap : (w.perform r s).addrMap = s.addrMap := rfl
      simp only [hmap]
      dsimp only at hstep
      split at hstep <;> cases hstep <;> exact ⟨rfl, le_rfl⟩
  | registerRefresh r' => cases hstep
  | registerId =>
      cases hstep
      exact ⟨rfl, le_rfl⟩
  | registerNew sessionId =>
      cases hstep
      refine ⟨?_, Nat.le_succ _⟩
      unfold RegistryCall.registerClientStep
      have hnext : (w.perform r s).next = s.next := rfl
      simp only [hnext, w.update_perform hr.ne]
      rfl
  | registerIdMap r' =>
      cases hstep
      refine ⟨?_, le_rfl⟩
      unfold RegistryCall.registerClientStep
      simp only [(w.heap_perform r r' s).1]
      rfl
  | registerAddrMap r' => cases hstep
  | _ =>
      cases hstep
      exact ⟨rfl, le_rfl⟩

/-- A step of `RemoveClient` commutes with a write to a context. -/
theorem removeClientStep_write {sessionId : UInt64}
    (hstep : RegistryCall.removeClientStep s sessionId p = (s', .inl p')) :
    RegistryCall.removeClientStep (w.perform r s) sessionId p = (w.perform r s', .inl p') ∧
      s.next ≤ s'.next := by
  cases p with
  | removeFind =>
      unfold RegistryCall.removeClientStep at hstep ⊢
      have hmap : (w.perform r s).idMap = s.idMap := rfl
      simp only [hmap]
      dsimp only at hstep
      split at hstep <;> cases hstep
      exact ⟨rfl, le_rfl⟩
  | removeAddr r' =>
      cases hstep
      refine ⟨?_, le_rfl⟩
      unfold RegistryCall.removeClientStep
      simp only [(w.heap_perform r r' s).2]
      rfl
  | removeId => cases hstep
  | _ =>
      cases hstep
      exact ⟨rfl, le_rfl⟩

/-- A broadcast does not read what is written. -/
theorem broadcastStep_write (skip : UInt64 → Bool) (buf : β) (p : RegistryPos β) :
    RegistryCall.broadcastStep (w.perform r s) skip buf p = RegistryCall.broadcastStep s skip buf p := by
  cases p with
  | sendNext n datagrams =>
      unfold RegistryCall.broadcastStep
      have hmap : (w.perform r s).idMap = s.idMap := rfl
      simp only [hmap, (w.heap_perform r _ s).2]
  | _ => rfl

/-- **A write without a lock commutes with the steps of the methods**, when the context was there
before. -/
theorem registryStep_write {c : RegistryCall β} (hr : r < s.next)
    (hstep : c.step s now p = (s', .inl p')) :
    c.step (w.perform r s) now p = (w.perform r s', .inl p') ∧ s.next ≤ s'.next := by
  cases c with
  | registerClient addr => exact registerClientStep_write hr hstep
  | removeClient sessionId => exact removeClientStep_write hstep
  | findByAddr addr =>
      obtain ⟨rfl, hnext⟩ := Prod.mk.inj hstep
      refine ⟨?_, le_rfl⟩
      unfold RegistryCall.step
      dsimp only
      cases p with
      | findAddr => exact congrArg _ hnext
      | compareAddr r' => cases hnext
      | _ => exact congrArg _ hnext
  | findById sessionId =>
      obtain ⟨rfl, hnext⟩ := Prod.mk.inj hstep
      refine ⟨?_, le_rfl⟩
      cases p with
      | findId => cases hnext
      | _ => exact congrArg _ hnext
  | broadcast buf =>
      obtain ⟨rfl, hnext⟩ := Prod.mk.inj hstep
      exact ⟨congrArg _ ((broadcastStep_write _ buf p).trans hnext), le_rfl⟩
  | broadcastExcept excludeSessionId buf =>
      obtain ⟨rfl, hnext⟩ := Prod.mk.inj hstep
      exact ⟨congrArg _ ((broadcastStep_write _ buf p).trans hnext), le_rfl⟩

end writes

end CowboyPoker.ServerCore
