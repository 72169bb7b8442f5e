import CowboyPoker.GameServer.WorkerThreads

/-!
# Datagrams between the kernel and the handlers

The kernel writes every datagram to the same buffer. What is in it is on its way until a thread calls
`OnRecvPacket`; the next receive is registered when that call has returned.

* `deliveredIn`, `handledIn` — the datagrams that the kernel wrote in a run, and those that
  `OnRecvPacket` was called with.
* `Flow` — what a step of the receive loop does to the buffer and to the length that a thread carries.
* `OnTheWay` — a datagram that is written and not handled: it is queued, or a thread carries it.
* `delivered_handled` — as long as no receive fails, every datagram that holds a header is handled once,
  in the order in which they were written, and none but the last is still on its way.
-/

namespace CowboyPoker.GameServer

open CowboyPoker.Found
open CowboyPoker.ServerCore

variable {ρ : Type} {B : Backend ρ}

/-! ## The receive loop -/

/-- What a step of the receive loop from `p` to `p'` does to the buffer; it may write a datagram. -/
inductive Flow (s : RecvShared) (p : RecvPc) (s' : RecvShared) (p' : RecvPc) :
    Option (SockAddrIn × Bytes) → Prop
  /-- Nothing happened to what is on its way. -/
  | kept (hcompletions : s'.completions = s.completions) (hsame : SameDatagram s s')
      (hlen : lenAt p' = lenAt p) : Flow s p s' p' none
  /-- A datagram without a header was ignored. -/
  | ignored (n : ℕ) (hcompletions : s'.completions = s.completions) (hp : p = .check n)
      (hp' : p' = .registerRecv) (hshort : n < udpPacketHeaderSize) : Flow s p s' p' none
  /-- The kernel wrote a datagram. -/
  | wrote (datagram : Bytes) (sender : SockAddrIn)
      (hcompletions : s'.completions =
        s.completions ++ [⟨none, min datagram.length udpMaxPacket⟩])
      (hbuf : s'.recvBuf = writeRecvBuf s.recvBuf datagram) (hfrom : s'.recvFromAddr = sender)
      (hlen : lenAt p' = lenAt p) (hfree : 0 < s.outstanding ∨ p = .wsaRecvFrom) :
      Flow s p s' p' (some (sender, datagram.take udpMaxPacket))
  /-- A thread took a completion. -/
  | took (c : Completion) (hcompletions : s.completions = c :: s'.completions)
      (hsame : SameDatagram s s') (hp : p = .outside)
      (hp' : p' = if c.errCode = some waitTimeout then .outside else .dispatch c.numOfBytes) :
      Flow s p s' p' none

section flow

variable {s s' : RecvShared} {p p' : RecvPc}

/-- Only `WSARecvFrom` writes to the buffer. -/
theorem writtenBy_next_of_ne {r : RecvResult} (h : p ≠ .wsaRecvFrom) :
    writtenBy p (.next r) = none := by
  cases r with
  | received datagram sender => exact if_neg h
  | failed errorCode => rfl

/-- What a step of the receive path does to the datagrams. -/
theorem flow_next {r : RecvResult} (h : recvNext s r p = some (s', p'))
    (hp : ∀ len, p ≠ .onRecvPacket len) : Flow s p s' p' (writtenBy p (.next r)) := by
  by_cases hwsa : p = .wsaRecvFrom
  · subst hwsa
    cases r with
    | received datagram sender =>
        cases h
        rw [writtenBy, if_pos rfl]
        exact .wrote datagram sender rfl rfl rfl rfl (.inr rfl)
    | failed errorCode =>
        rw [recvNext] at h
        split at h
        · cases h
          exact .kept rfl ⟨rfl, rfl⟩ rfl
        · cases h
          exact .kept rfl ⟨rfl, rfl⟩ rfl
  rw [writtenBy_next_of_ne hwsa]
  cases p with
  | outside => cases h
  | dispatch n =>
      rw [recvNext] at h
      split at h
      · cases h
        exact .kept rfl ⟨rfl, rfl⟩ rfl
      · cases h
        exact .kept rfl ⟨rfl, rfl⟩ rfl
  | check n =>
      rw [recvNext] at h
      split at h
      · cases h
        exact .kept rfl ⟨rfl, rfl⟩ rfl
      · rename_i hshort
        cases h
        exact .ignored n rfl rfl rfl (not_le.mp hshort)
  | onRecvPacket n => exact absurd rfl (hp n)
  | wsaRecvFrom => exact absurd rfl hwsa
  | processRecv n =>
      cases h
      exact .kept rfl ⟨rfl, rfl⟩ rfl
  | registerRecv =>
      cases h
      exact .kept rfl ⟨rfl, rfl⟩ rfl
  | clearOwner =>
      cases h
      exact .kept rfl ⟨rfl, rfl⟩ rfl

/-- **The inversion of a step of the receive loop**, unless a receive fails or `OnRecvPacket` is
skipped. -/
theorem flow_choose {k : RecvChoice} (h : recvChoose s p k = some (s', p'))
    (hfails : isFailure k = false)
    (hp : isKernel k = false → ∀ len, p ≠ .onRecvPacket len) : Flow s p s' p' (writtenBy p k) := by
  cases k with
  | arrives datagram sender =>
      obtain ⟨hout, h⟩ := Option.ite_none_left_eq_some.mp h
      cases h
      exact .wrote datagram sender rfl rfl rfl rfl (.inl (Nat.pos_of_ne_zero hout))
  | fails errCode numOfBytes => cases hfails
  | dequeue =>
      obtain ⟨rfl, hdequeue⟩ := Option.ite_none_right_eq_some.mp h
      unfold dequeueStep at hdequeue
      split at hdequeue
      · cases hdequeue
      · rename_i hcompletions
        cases hdequeue
        exact .took _ hcompletions ⟨rfl, rfl⟩ rfl rfl
  | timeout =>
      obtain ⟨-, h⟩ := Option.ite_none_right_eq_some.mp h
      cases h
      exact .kept rfl ⟨rfl, rfl⟩ rfl
  | work =>
      obtain ⟨-, h⟩ := Option.ite_none_right_eq_some.mp h
      cases h
      exact .kept rfl ⟨rfl, rfl⟩ rfl
  | next r => exact flow_next h (hp rfl)

/-- What the kernel wrote is what a thread reads. -/
theorem take_writeRecvBuf (recvBuf datagram : Bytes) :
    (writeRecvBuf recvBuf datagram).take (min datagram.length udpMaxPacket) =
      datagram.take udpMaxPacket := by
  unfold writeRecvBuf
  rw [List.take_append_of_le_length, List.take_take]
  · rcases le_total datagram.length udpMaxPacket with h | h
    · rw [Nat.min_eq_left h, Nat.min_eq_left h, List.take_of_length_le (le_refl _),
        List.take_of_length_le h]
    · rw [Nat.min_eq_right h, Nat.min_self]
  · rw [List.length_take, Nat.min_comm]

end flow

/-! ## What is on its way -/

section delivery

variable {τ : Type}

/-- The datagrams that the kernel wrote to the buffer. -/
def deliveredIn
    (h : List (Entry (Processes τ (ServerShared ρ) ThreadPc) (τ × ThreadChoice) (Option ThreadShown))) :
    List (SockAddrIn × Bytes) :=
  h.flatMap fun t => (t.output.bind ThreadShown.delivered).toList

/-- The datagrams that `OnRecvPacket` was called with. -/
def handledIn
    (h : List (Entry (Processes τ (ServerShared ρ) ThreadPc) (τ × ThreadChoice) (Option ThreadShown))) :
    List (SockAddrIn × Bytes) :=
  h.flatMap fun t => (t.output.bind ThreadShown.handling).toList

/-- A datagram that `ProcessRecv` does not ignore. -/
def hasHeader (x : SockAddrIn × Bytes) : Bool := udpPacketHeaderSize ≤ x.2.length

/-- The length that a worker carries to `OnRecvPacket`. -/
def carriedLen : ThreadPc → Option ℕ
  | .worker p => lenAt p
  | _ => none

/-- The first `len` bytes of the buffer and their sender. -/
def firstBytes (s : RecvShared) (len : ℕ) : SockAddrIn × Bytes :=
  (s.recvFromAddr, s.recvBuf.take len)

/-- The datagrams on their way from the kernel to `OnRecvPacket`. -/
inductive OnTheWay (s : Processes τ (ServerShared ρ) ThreadPc) : List (SockAddrIn × Bytes) → Prop
  /-- There is none. -/
  | nothing (hcompletions : s.shared.recv.completions = []) (hpc : ∀ t, carriedLen (s.pc t) = none) :
      OnTheWay s []
  /-- One is queued. -/
  | queued (len : ℕ) (hcompletions : s.shared.recv.completions = [⟨none, len⟩]) :
      OnTheWay s [firstBytes s.shared.recv len]
  /-- A thread carries one. -/
  | carried (t : τ) (len : ℕ) (hpc : carriedLen (s.pc t) = some len) :
      OnTheWay s [firstBytes s.shared.recv len]

/-- What is delivered in the run `h` that led to `s` is handled, on its way, or without a header. -/
structure Delivery (main : τ)
    (h : List (Entry (Processes τ (ServerShared ρ) ThreadPc) (τ × ThreadChoice) (Option ThreadShown)))
    (s : Processes τ (ServerShared ρ) ThreadPc) : Prop where
  inv : PoolInv main s
  starting : ∀ t q, s.pc t = .starting q → lenAt q = none ∧ q ≠ .outside
  headers : ∀ t len, s.pc t = .worker (.onRecvPacket len) → udpPacketHeaderSize ≤ len
  passed : ∃ w, OnTheWay s w ∧ handledIn h ++ w.filter hasHeader = (deliveredIn h).filter hasHeader

/-- A thread that carries a datagram has the right to the buffer. -/
theorem hasToken_of_carried {p : ThreadPc} {len : ℕ} (h : carriedLen p = some len) :
    HasToken p.recv := by
  cases p with
  | worker q =>
      rintro rfl
      cases h
  | _ => cases h

variable [DecidableEq τ] {main t : τ} {s : Processes τ (ServerShared ρ) ThreadPc}
  {next : ServerShared ρ × ThreadPc × ThreadShown} {w : List (SockAddrIn × Bytes)}

/-- A step that does not concern what is on its way. -/
theorem OnTheWay.keep (h : OnTheWay s w)
    (hcompletions : next.1.recv.completions = s.shared.recv.completions)
    (hsame : SameDatagram s.shared.recv next.1.recv) (hpc : carriedLen next.2.1 = carriedLen (s.pc t)) :
    OnTheWay ⟨next.1, Function.update s.pc t next.2.1⟩ w := by
  have hfirst : ∀ len, firstBytes next.1.recv len = firstBytes s.shared.recv len := by
    intro len
    rw [firstBytes, firstBytes, hsame.1, hsame.2]
  cases h with
  | nothing hnone hall =>
      refine .nothing (hcompletions.trans hnone) ?_
      rw [Function.forall_update_iff s.pc fun _ q => carriedLen q = none]
      exact ⟨hpc.trans (hall t), fun u _ => hall u⟩
  | queued len hqueued =>
      rw [← hfirst]
      exact .queued len (hcompletions.trans hqueued)
  | carried u len hu =>
      rw [← hfirst]
      refine .carried u len ?_
      dsimp only
      by_cases heq : u = t
      · subst heq
        rw [Function.update_self, hpc]
        exact hu
      · rw [Function.update_of_ne heq]
        exact hu

omit [DecidableEq τ] in
/-- While a receive is outstanding or about to be registered, nothing is on its way. -/
theorem OnTheWay.eq_nil (h : OnTheWay s w) (hinv : PoolInv main s)
    (hfree : 0 < s.shared.recv.outstanding ∨ (s.pc t).recv = .wsaRecvFrom) : w = [] := by
  cases h with
  | nothing => rfl
  | queued len hqueued =>
      exfalso
      rcases hfree with hout | hpc
      · have hsingle := hinv.token.shared.single
        simp only [recvView, hqueued, List.length_singleton] at hsingle
        omega
      · have htoken : HasToken (s.pc t).recv := by
          rw [hpc]
          exact nofun
        have hidle := ((hinv.token.each t).idle htoken).2
        cases hqueued.symm.trans hidle
  | carried u len hu =>
      exfalso
      have htoken := hasToken_of_carried hu
      rcases hfree with hout | hpc
      · exact hout.ne' ((hinv.token.each u).idle htoken).1
      · have heq : u = t := by
          by_contra hne
          have htoken' : HasToken (s.pc t).recv := by
            rw [hpc]
            exact nofun
          exact hinv.token.pairs u t hne ⟨htoken, htoken'⟩
        subst heq
        cases hp : s.pc u with
        | worker q =>
            rw [hp] at hpc hu
            cases hpc
            cases hu
        | _ =>
            rw [hp] at hu
            cases hu

omit [DecidableEq τ] in
/-- What a thread carries is what is on its way. -/
theorem OnTheWay.eq_of_carried (h : OnTheWay s w) (hinv : PoolInv main s) {len : ℕ}
    (ht : carriedLen (s.pc t) = some len) :
    w = [firstBytes s.shared.recv len] ∧ s.shared.recv.completions = [] ∧
      ∀ u, u ≠ t → carriedLen (s.pc u) = none := by
  have htoken := hasToken_of_carried ht
  have hcompletions := ((hinv.token.each t).idle htoken).2
  have hothers : ∀ u, u ≠ t → carriedLen (s.pc u) = none := by
    intro u hu
    rcases hcarried : carriedLen (s.pc u) with _ | n
    · rfl
    · exact absurd ⟨hasToken_of_carried hcarried, htoken⟩ (hinv.token.pairs u t hu)
  refine ⟨?_, hcompletions, hothers⟩
  cases h with
  | nothing _ hall =>
      rw [hall t] at ht
      cases ht
  | queued n hqueued => cases hqueued.symm.trans hcompletions
  | carried u n hu =>
      have heq : u = t := by
        by_contra hne
        rw [hothers u hne] at hu
        cases hu
      subst heq
      rw [ht] at hu
      cases hu
      rfl

omit [DecidableEq τ] in
/-- What is queued is what is on its way. -/
theorem OnTheWay.eq_of_queued (h : OnTheWay s w) (hinv : PoolInv main s) {c : Completion}
    {completions : List Completion} (hqueued : s.shared.recv.completions = c :: completions) :
    c.errCode = none ∧ completions = [] ∧ w = [firstBytes s.shared.recv c.numOfBytes] := by
  cases h with
  | nothing hnone => cases hqueued.symm.trans hnone
  | queued len hone =>
      cases hqueued.symm.trans hone
      exact ⟨rfl, rfl, rfl⟩
  | carried u len hu =>
      cases hqueued.symm.trans ((hinv.token.each u).idle (hasToken_of_carried hu)).2

/-- How a step changes what is on its way from `w` to `w'`. -/
structure Passes (t : τ) (s : Processes τ (ServerShared ρ) ThreadPc)
    (next : ServerShared ρ × ThreadPc × ThreadShown) (w w' : List (SockAddrIn × Bytes)) : Prop where
  onTheWay : OnTheWay ⟨next.1, Function.update s.pc t next.2.1⟩ w'
  passed : next.2.2.handling.toList ++ w'.filter hasHeader =
    w.filter hasHeader ++ next.2.2.delivered.toList.filter hasHeader
  starting : ∀ q, next.2.1 = .starting q → lenAt q = none ∧ q ≠ .outside
  headers : ∀ len, next.2.1 = .worker (.onRecvPacket len) → udpPacketHeaderSize ≤ len

/-- A thread gets to `OnRecvPacket` with a header. -/
theorem header_of_choose {s s' : RecvShared} {p : RecvPc} {len : ℕ} {k : RecvChoice}
    (h : recvChoose s p k = some (s', .onRecvPacket len)) :
    p = .onRecvPacket len ∨ udpPacketHeaderSize ≤ len := by
  cases k with
  | arrives datagram sender =>
      obtain ⟨-, h⟩ := Option.ite_none_left_eq_some.mp h
      cases h
      exact .inl rfl
  | fails errCode numOfBytes =>
      obtain ⟨-, h⟩ := Option.ite_none_left_eq_some.mp h
      cases h
      exact .inl rfl
  | dequeue =>
      obtain ⟨-, hdequeue⟩ := Option.ite_none_right_eq_some.mp h
      unfold dequeueStep at hdequeue
      split at hdequeue
      · cases hdequeue
      · have hpc := congrArg Prod.snd (Option.some.inj hdequeue)
        dsimp only at hpc
        split at hpc <;> cases hpc
  | timeout =>
      obtain ⟨-, h⟩ := Option.ite_none_right_eq_some.mp h
      cases h
      exact .inl rfl
  | work =>
      obtain ⟨-, h⟩ := Option.ite_none_right_eq_some.mp h
      cases h
      exact .inl rfl
  | next r =>
      have hpc := congrArg (Option.map Prod.snd) h
      cases p with
      | check n =>
          rw [recvChoose, recvNext] at hpc
          dsimp only [Option.map_some] at hpc
          split at hpc
          · rename_i hheader
            cases hpc
            exact .inr hheader
          · cases hpc
      | dispatch n =>
          rw [recvChoose, recvNext] at hpc
          split at hpc <;> cases hpc
      | wsaRecvFrom =>
          cases r with
          | received datagram sender => cases hpc
          | failed errorCode =>
              rw [recvChoose, recvNext] at hpc
              split at hpc <;> cases hpc
      | _ => cases hpc

/-- The thread in `UdpService::Start` carries nothing. -/
theorem lenAt_of_flow {recv recv' : RecvShared} {q q' : RecvPc} {d : Option (SockAddrIn × Bytes)}
    (hflow : Flow recv q recv' q' d) (hlen : lenAt q = none) (hout : q ≠ .outside) :
    lenAt q' = none := by
  cases hflow with
  | kept _ _ hsame => rw [hsame, hlen]
  | ignored n _ _ hq' =>
      rw [hq']
      rfl
  | wrote _ _ _ _ _ hsame => rw [hsame, hlen]
  | took c _ _ hq => exact absurd hq hout

section moves

variable {recv : RecvShared} {k : RecvChoice} {p p' : ThreadPc}

/-- A thread that carries as much as before. -/
theorem Moves.carriedLen_eq (h : Moves recv k p p') (hlen : lenAt p'.recv = lenAt p.recv) :
    carriedLen p' = carriedLen p := by
  cases h with
  | kernel => rfl
  | worker => exact hlen
  | starting =>
      unfold ThreadPc.started
      split <;> rfl

/-- A thread that moves, other than the one in `UdpService::Start`, is a worker. -/
theorem Moves.eq_worker (h : Moves recv k p p') (hne : p'.recv ≠ p.recv)
    (hstarting : ∀ q, p ≠ .starting q) : p = .worker p.recv ∧ p' = .worker p'.recv := by
  cases h with
  | kernel => exact absurd rfl hne
  | worker => exact ⟨rfl, rfl⟩
  | starting => exact absurd rfl (hstarting _)

/-- The thread in `UdpService::Start` gets to its loop with nothing to carry. -/
theorem Moves.starting_of_starting (h : Moves recv k p p')
    (hp : ∀ q, p = .starting q → lenAt q = none ∧ q ≠ .outside)
    (hlen : ∀ q, p = .starting q → lenAt p'.recv = none) :
    ∀ q, p' = .starting q → lenAt q = none ∧ q ≠ .outside := by
  intro q hq
  cases h with
  | kernel => exact hp q hq
  | worker => cases hq
  | starting =>
      have hnone := hlen _ rfl
      rw [recv_started] at hnone
      unfold ThreadPc.started at hq
      split at hq
      · cases hq
      · rename_i hout
        cases hq
        exact ⟨hnone, hout⟩

/-- Only the handler takes a thread out of `OnRecvPacket`. -/
theorem Moves.ne_onRecvPacket (h : Moves recv k p p') (hk : isKernel k = false)
    (hp : ∀ q, p = .starting q → lenAt q = none ∧ q ≠ .outside) (len : ℕ) :
    p.recv ≠ .onRecvPacket len := by
  intro heq
  cases h with
  | kernel hkernel =>
      rw [hk] at hkernel
      cases hkernel
  | worker _ hq => exact hq len heq
  | starting =>
      obtain rfl : _ = RecvPc.onRecvPacket len := heq
      cases (hp _ rfl).1

/-- A worker gets to `OnRecvPacket` with a header. -/
theorem Moves.headers (h : Moves recv k p p') {recv' : RecvShared}
    (hchoose : recvChoose recv p.recv k = some (recv', p'.recv))
    (hp : ∀ len, p = .worker (.onRecvPacket len) → udpPacketHeaderSize ≤ len) :
    ∀ len, p' = .worker (.onRecvPacket len) → udpPacketHeaderSize ≤ len := by
  intro len hp'
  cases h with
  | kernel => exact hp len hp'
  | worker _ hq =>
      cases hp'
      exact (header_of_choose hchoose).resolve_left (hq len)
  | starting =>
      unfold ThreadPc.started at hp'
      split at hp' <;> cases hp'

end moves

/-- A step of the kernel or of the receive loop. -/
theorem passes_received {k : RecvChoice} {recv : RecvShared} {p' : ThreadPc}
    (hinv : PoolInv main s) (hstarting : ∀ q, s.pc t = .starting q → lenAt q = none ∧ q ≠ .outside)
    (hheaders : ∀ len, s.pc t = .worker (.onRecvPacket len) → udpPacketHeaderSize ≤ len)
    (hw : OnTheWay s w) (hchoose : recvChoose s.shared.recv (s.pc t).recv k = some (recv, p'.recv))
    (hmoves : Moves s.shared.recv k (s.pc t) p') (hfails : isFailure k = false) :
    ∃ w', Passes t s
      ({ s.shared with recv }, p', { delivered := writtenBy (s.pc t).recv k, failed := isFailure k })
      w w' := by
  have hflow : Flow s.shared.recv (s.pc t).recv recv p'.recv (writtenBy (s.pc t).recv k) :=
    flow_choose hchoose hfails fun hk => hmoves.ne_onRecvPacket hk hstarting
  have hstarting' : ∀ q, p' = .starting q → lenAt q = none ∧ q ≠ .outside := by
    refine hmoves.starting_of_starting hstarting fun q hq => ?_
    rw [hq] at hflow
    exact lenAt_of_flow hflow (hstarting q hq).1 (hstarting q hq).2
  have hheaders' := hmoves.headers hchoose hheaders
  generalize writtenBy (s.pc t).recv k = d at hflow ⊢
  -- a thread with something to carry is not the one in `UdpService::Start`
  have hworker : ∀ n, lenAt (s.pc t).recv = some n → ∀ q, s.pc t ≠ .starting q := by
    intro n hn q hq
    rw [hq] at hn
    cases hn.symm.trans (hstarting q hq).1
  cases hflow with
  | kept hcompletions hsame hlen =>
      refine ⟨w, hw.keep hcompletions hsame (hmoves.carriedLen_eq hlen), ?_, hstarting', hheaders'⟩
      exact (List.append_nil _).symm
  | ignored n hcompletions hp hp' hshort =>
      have hne : p'.recv ≠ (s.pc t).recv := by
        rw [hp, hp']
        exact nofun
      obtain ⟨hpt, hpt'⟩ := hmoves.eq_worker hne (hworker n (by rw [hp]; rfl))
      have hcarried : carriedLen (s.pc t) = some n := by
        rw [hpt, hp]
        rfl
      obtain ⟨rfl, hnone, hothers⟩ := hw.eq_of_carried hinv hcarried
      have hignored : hasHeader (firstBytes s.shared.recv n) = false := by
        have hle := List.length_take_le n s.shared.recv.recvBuf
        exact decide_eq_false (not_le.mpr (hle.trans_lt hshort))
      refine ⟨[], .nothing (hcompletions.trans hnone) ?_, ?_, hstarting', hheaders'⟩
      · rw [Function.forall_update_iff s.pc fun _ q => carriedLen q = none]
        refine ⟨?_, hothers⟩
        dsimp only
        rw [hpt', hp']
        rfl
      · simp only [Option.toList_none, List.filter_nil, List.append_nil, List.filter_singleton,
          hignored, cond_false]
  | wrote datagram sender hcompletions hbuf hfrom hlen hfree =>
      obtain rfl := hw.eq_nil hinv hfree
      have hnone : s.shared.recv.completions = [] := by
        cases hw
        assumption
      rw [hnone, List.nil_append] at hcompletions
      have hfirst : firstBytes recv (min datagram.length udpMaxPacket) =
          (sender, datagram.take udpMaxPacket) := by
        rw [firstBytes, hbuf, hfrom, take_writeRecvBuf]
      refine ⟨_, .queued _ hcompletions, ?_, hstarting', hheaders'⟩
      dsimp only
      rw [hfirst]
      rfl
  | took c hcompletions hsame hp hp' =>
      obtain ⟨herr, hrest, rfl⟩ := hw.eq_of_queued hinv hcompletions
      rw [if_neg (by rw [herr]; exact nofun)] at hp'
      have hne : p'.recv ≠ (s.pc t).recv := by
        rw [hp, hp']
        exact nofun
      have hstart : ∀ q, s.pc t ≠ .starting q := by
        intro q hq
        rw [hq] at hp
        exact (hstarting q hq).2 hp
      obtain ⟨-, hpt'⟩ := hmoves.eq_worker hne hstart
      have hfirst : firstBytes recv c.numOfBytes = firstBytes s.shared.recv c.numOfBytes := by
        rw [firstBytes, firstBytes, hsame.1, hsame.2]
      refine ⟨_, .carried t c.numOfBytes ?_, ?_, hstarting', hheaders'⟩
      · dsimp only
        rw [Function.update_self, hpt', hp']
        rfl
      · dsimp only
        rw [hfirst]
        exact (List.append_nil _).symm

/-- A thread that carries nothing and is not in `UdpService::Start`. -/
def IsFree (p : ThreadPc) : Prop := carriedLen p = none ∧ ∀ q, p ≠ .starting q

/-- A step that neither writes nor handles a datagram. -/
theorem passes_quiet (hstarting : ∀ q, s.pc t = .starting q → lenAt q = none ∧ q ≠ .outside)
    (hheaders : ∀ len, s.pc t = .worker (.onRecvPacket len) → udpPacketHeaderSize ≤ len)
    (hw : OnTheWay s w) (hrecv : next.1.recv = s.shared.recv) (hdelivered : next.2.2.delivered = none)
    (hhandling : next.2.2.handling = none)
    (hpc : next.2.1 = s.pc t ∨ IsFree next.2.1 ∧ IsFree (s.pc t)) : Passes t s next w w := by
  constructor
  · refine hw.keep (by rw [hrecv]) (by rw [hrecv]; exact ⟨rfl, rfl⟩) ?_
    rcases hpc with heq | ⟨hfree, hfree'⟩
    · rw [heq]
    · rw [hfree.1, hfree'.1]
  · rw [hdelivered, hhandling]
    exact (List.append_nil _).symm
  · intro q hq
    rcases hpc with heq | ⟨hfree, -⟩
    · exact hstarting q (heq ▸ hq)
    · exact absurd hq (hfree.2 q)
  · intro len hlen
    rcases hpc with heq | ⟨hfree, -⟩
    · exact hheaders len (heq ▸ hlen)
    · have hnone := hfree.1
      rw [hlen] at hnone
      cases hnone

section body

variable (s : ServerShared ρ) (len : ℕ)

/-- Behind the lookup the thread carries nothing. -/
theorem isFree_lookupStep : IsFree (s.lookupStep len).2.1 := by
  unfold ServerShared.lookupStep
  split_ifs
  · exact ⟨rfl, nofun⟩
  · exact ⟨rfl, nofun⟩
  · split <;> exact ⟨rfl, nofun⟩

/-- The lookup changes nothing in the receive loop, and shows what `OnRecvPacket` was called with. -/
theorem lookupStep_frame :
    (s.lookupStep len).1.recv = s.recv ∧ (s.lookupStep len).2.2.delivered = none ∧
      (s.lookupStep len).2.2.handling = some (firstBytes s.recv len) := by
  unfold ServerShared.lookupStep
  split_ifs
  · exact ⟨rfl, rfl, rfl⟩
  · exact ⟨rfl, rfl, rfl⟩
  · split <;> exact ⟨rfl, rfl, rfl⟩

/-- The filter touches no datagram. -/
theorem filterStep_frame (r : UdpClientContextRef) :
    (s.filterStep len r).1.recv = s.recv ∧ (s.filterStep len r).2.2.delivered = none ∧
      (s.filterStep len r).2.2.handling = none ∧ IsFree (s.filterStep len r).2.1 := by
  unfold ServerShared.filterStep
  split_ifs <;> exact ⟨rfl, rfl, rfl, rfl, nofun⟩

/-- The sends touch no datagram. -/
theorem sendStep_frame (requests : List SendRequest) (fault : Option Fault) :
    (s.sendStep len requests fault).1.recv = s.recv ∧
      (s.sendStep len requests fault).2.2.delivered = none ∧
      (s.sendStep len requests fault).2.2.handling = none ∧
      IsFree (s.sendStep len requests fault).2.1 := by
  unfold ServerShared.sendStep
  cases requests with
  | cons q requests => exact ⟨rfl, rfl, rfl, rfl, nofun⟩
  | nil =>
      dsimp only
      split_ifs <;> exact ⟨rfl, rfl, rfl, rfl, nofun⟩

end body

/-- **What a step does to what is on its way.** -/
theorem passes (hinv : PoolInv main s)
    (hstarting : ∀ q, s.pc t = .starting q → lenAt q = none ∧ q ≠ .outside)
    (hheaders : ∀ len, s.pc t = .worker (.onRecvPacket len) → udpPacketHeaderSize ≤ len)
    (hw : OnTheWay s w) (hcase : ServerCase B s.shared (s.pc t) next)
    (hfails : next.2.2.failed = false) : ∃ w', Passes t s next w w' := by
  cases hcase with
  | elapsed ms => exact ⟨w, passes_quiet hstarting hheaders hw rfl rfl rfl (.inl rfl)⟩
  | received k recv p' hchoose hmoves =>
      exact passes_received hinv hstarting hheaders hw hchoose hmoves hfails
  | looked len hp =>
      obtain ⟨hrecv, hdelivered, hhandling⟩ := lookupStep_frame s.shared len
      have hfree := isFree_lookupStep s.shared len
      have hcarried : carriedLen (s.pc t) = some len := by
        rw [hp]
        rfl
      obtain ⟨rfl, hnone, hothers⟩ := hw.eq_of_carried hinv hcarried
      obtain ⟨d, hd⟩ := hinv.exists_inBuffer (congrArg ThreadPc.recv hp)
      have hheader : hasHeader (firstBytes s.shared.recv len) = true := by
        refine decide_eq_true ?_
        rw [firstBytes, ← hd.data, hd.length]
        exact hheaders len hp
      refine ⟨[], .nothing ?_ ?_, ?_, fun q hq => absurd hq (hfree.2 q), fun len hlen => ?_⟩
      · dsimp only
        rw [hrecv]
        exact hnone
      · rw [Function.forall_update_iff s.pc fun _ q => carriedLen q = none]
        exact ⟨hfree.1, hothers⟩
      · rw [hdelivered, hhandling, List.filter_singleton, hheader]
        rfl
      · have hfree := hfree.1
        rw [hlen] at hfree
        cases hfree
  | filtered len r hp =>
      obtain ⟨hrecv, hdelivered, hhandling, hfree⟩ := filterStep_frame s.shared len r
      exact ⟨w, passes_quiet hstarting hheaders hw hrecv hdelivered hhandling
        (.inr ⟨hfree, hp ▸ ⟨rfl, nofun⟩⟩)⟩
  | handled len r hp =>
      exact ⟨w, passes_quiet hstarting hheaders hw rfl rfl rfl
        (.inr ⟨⟨rfl, nofun⟩, hp ▸ ⟨rfl, nofun⟩⟩)⟩
  | sent len requests fault hp =>
      obtain ⟨hrecv, hdelivered, hhandling, hfree⟩ := sendStep_frame s.shared len requests fault
      exact ⟨w, passes_quiet hstarting hheaders hw hrecv hdelivered hhandling
        (.inr ⟨hfree, hp ▸ ⟨rfl, nofun⟩⟩)⟩
  | looped m hp =>
      exact ⟨w, passes_quiet hstarting hheaders hw rfl rfl rfl
        (.inr ⟨⟨rfl, nofun⟩, hp ▸ ⟨rfl, nofun⟩⟩)⟩

/-! ## Runs -/

/-- A step of the run in which no receive fails. -/
def NoFailure
    (t : Entry (Processes τ (ServerShared ρ) ThreadPc) (τ × ThreadChoice) (Option ThreadShown)) :
    Prop :=
  ∀ o ∈ t.output, o.failed = false

instance
    (t : Entry (Processes τ (ServerShared ρ) ThreadPc) (τ × ThreadChoice) (Option ThreadShown)) :
    Decidable (NoFailure t) :=
  inferInstanceAs (Decidable (∀ o ∈ t.output, o.failed = false))

/-- At the start no datagram is on its way. -/
theorem delivery_init (main : τ) (redis : RedisClient ρ) (clock : ℤ) :
    Delivery main [] (serverInit main redis clock) where
  inv := poolInv_init main redis clock
  starting u q hq := by
    simp only [serverInit] at hq
    by_cases hu : u = main
    · rw [hu, Function.update_self] at hq
      cases hq
      exact ⟨rfl, fun h => by cases h⟩
    · rw [Function.update_of_ne hu] at hq
      cases hq
  headers u len hlen := by
    simp only [serverInit] at hlen
    by_cases hu : u = main
    · rw [hu, Function.update_self] at hlen
      cases hlen
    · rw [Function.update_of_ne hu] at hlen
      cases hlen
  passed := by
    refine ⟨[], .nothing rfl fun u => ?_, rfl⟩
    simp only [serverInit]
    by_cases hu : u = main
    · rw [hu, Function.update_self]
      rfl
    · rw [Function.update_of_ne hu]
      rfl

/-- **The step lemma.** -/
theorem delivery_step
    {h : List (Entry (Processes τ (ServerShared ρ) ThreadPc) (τ × ThreadChoice) (Option ThreadShown))}
    (hinv : Delivery main h s) (e : τ × ThreadChoice)
    (hfails : NoFailure ((serverThreads B τ).entry s e)) :
    Delivery main (h ++ [(serverThreads B τ).entry s e]) ((serverThreads B τ).step s e).1 := by
  obtain ⟨t, k⟩ := e
  rcases hact : serverAct B t s.shared (s.pc t) k with _ | next
  · have hstep : (serverThreads B τ).step s (t, k) = (s, none) := interleave_step_of_none hact
    simp only [Transducer.entry, hstep] at hfails ⊢
    refine ⟨hinv.inv, hinv.starting, hinv.headers, ?_⟩
    simp only [handledIn, deliveredIn, List.flatMap_append, List.flatMap_singleton,
      Option.bind_none, Option.toList_none, List.append_nil]
    exact hinv.passed
  obtain ⟨-, hcase⟩ := serverCase hact
  have hstep : (serverThreads B τ).step s (t, k) =
      (⟨next.1, Function.update s.pc t next.2.1⟩, some next.2.2) := interleave_step_of_some hact
  simp only [Transducer.entry, hstep] at hfails ⊢
  obtain ⟨w, hw, hpassed⟩ := hinv.passed
  obtain ⟨w', hw', hpassed', hstarting, hheaders⟩ :=
    passes hinv.inv (hinv.starting t) (hinv.headers t) hw hcase (hfails _ rfl)
  refine ⟨hinv.inv.update hcase, ?_, ?_, w', hw', ?_⟩
  · rw [Function.forall_update_iff s.pc fun _ p => ∀ q, p = .starting q → lenAt q = none ∧ q ≠ .outside]
    exact ⟨hstarting, fun u _ => hinv.starting u⟩
  · rw [Function.forall_update_iff s.pc fun _ p =>
      ∀ len, p = .worker (.onRecvPacket len) → udpPacketHeaderSize ≤ len]
    exact ⟨hheaders, fun u _ => hinv.headers u⟩
  · have hhandled : handledIn (h ++ [⟨s, (t, k), ⟨next.1, Function.update s.pc t next.2.1⟩,
        some next.2.2⟩]) = handledIn h ++ next.2.2.handling.toList := by
      simp only [handledIn, List.flatMap_append, List.flatMap_singleton, Option.bind_some]
    have hdelivered : deliveredIn (h ++ [⟨s, (t, k), ⟨next.1, Function.update s.pc t next.2.1⟩,
        some next.2.2⟩]) = deliveredIn h ++ next.2.2.delivered.toList := by
      simp only [deliveredIn, List.flatMap_append, List.flatMap_singleton, Option.bind_some]
    rw [hhandled, hdelivered, List.append_assoc, hpassed', ← List.append_assoc, hpassed,
      List.filter_append]

omit [DecidableEq τ] in
/-- At most one datagram is on its way. -/
theorem OnTheWay.length_le {s : Processes τ (ServerShared ρ) ThreadPc} (h : OnTheWay s w) :
    w.length ≤ 1 := by
  cases h <;> simp

/-- **No datagram is lost or handled twice.** In every run in which no receive fails, the datagrams that
`OnRecvPacket` was called with and what is on its way are those that the kernel wrote and that hold a
header, each once and in the order in which they were written. At most one is on its way; it is what is
in the buffer, and is queued or carried by a thread. -/
theorem delivered_handled (B : Backend ρ) (main : τ) (redis : RedisClient ρ) (clock : ℤ)
    (events : List (τ × ThreadChoice))
    (hfails : ∀ t ∈ (serverThreads B τ).trace (serverInit main redis clock) events, NoFailure t) :
    let s := (serverThreads B τ).exec (serverInit main redis clock) events
    let h := (serverThreads B τ).trace (serverInit main redis clock) events
    ∃ w : List (SockAddrIn × Bytes), OnTheWay s w ∧ w.length ≤ 1 ∧
      handledIn h ++ w.filter hasHeader = (deliveredIn h).filter hasHeader ∧
      (s.shared.recv.completions = [] → (∀ t, (s.pc t).recv = .outside) → w = []) := by
  intro s h
  obtain ⟨-, -, -, w, hw, hpassed⟩ := (serverThreads B τ).history_invariant (C := NoFailure)
    (J := Delivery main) (delivery_init main redis clock)
    (fun _ _ e hinv hfails => delivery_step hinv e hfails) events hfails
  refine ⟨w, hw, hw.length_le, hpassed, fun hcompletions hpc => ?_⟩
  cases hw with
  | nothing => rfl
  | queued len hqueued => cases hqueued.symm.trans hcompletions
  | carried t len ht => exact absurd (hpc t) (hasToken_of_carried ht)

end delivery

/-- The handshake of user `A`. -/
def helloA : Datagram := .helloOf ⟨0x0100007F, 0x3930⟩ 65

/-- The heartbeat behind it. -/
def heartbeatA : Datagram :=
  .ofPayload ⟨0x0100007F, 0x3930⟩ ⟨1, 1, PacketType.cLobbyHeartbeat.value⟩ [] (Nat.zero_le _)

/-- The thread `true` registers the first receive; the thread `false` handles both datagrams. -/
def twoDatagrams : List (Bool × ThreadChoice) := startUp ++ serveBy helloA ++ serveBy heartbeatA

/-- Two datagrams arrive and are handled. -/
theorem delivered_handled_twoDatagrams :
    ∃ w : List (SockAddrIn × Bytes),
      OnTheWay ((serverThreads Backend.unreachable Bool).exec (serverInit true .disconnected 0)
        twoDatagrams) w ∧ w.length ≤ 1 ∧
      handledIn ((serverThreads Backend.unreachable Bool).trace (serverInit true .disconnected 0)
        twoDatagrams) ++ w.filter hasHeader =
        (deliveredIn ((serverThreads Backend.unreachable Bool).trace
          (serverInit true .disconnected 0) twoDatagrams)).filter hasHeader ∧
      (((serverThreads Backend.unreachable Bool).exec (serverInit true .disconnected 0)
          twoDatagrams).shared.recv.completions = [] →
        (∀ t, (((serverThreads Backend.unreachable Bool).exec (serverInit true .disconnected 0)
          twoDatagrams).pc t).recv = .outside) → w = []) :=
  delivered_handled Backend.unreachable true .disconnected 0 twoDatagrams (by decide +kernel)

/-- Both are handled. -/
example : handledIn ((serverThreads Backend.unreachable Bool).trace
    (serverInit true .disconnected 0) twoDatagrams) =
      [(helloA.senderAddr, helloA.data), (heartbeatA.senderAddr, heartbeatA.data)] := by
  decide +kernel

end CowboyPoker.GameServer
