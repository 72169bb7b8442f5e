import CowboyPoker.ServerCore.TcpStack

/-!
# What a connected session has behind it

`IocpCore::Dispatch` hands a failed completion to its owner like a successful one. `ProcessAccept`
asks the socket before it goes on; `ProcessConnect`, as the completion of a `ConnectEx`, asks nothing.

* `ConnectionLaw` — a session is connected, and in `_sessions`, only if a `ConnectEx` or an `AcceptEx`
  for it was successful; and no thread has run `ProcessConnect` for a session more often than it has
  dequeued such a success.
* `DispatchesFailedConnect` — a step that dispatches the failed completion of a `ConnectEx`.
* `Follows`, `Counts` — the order of the events of one connection, thread by thread.
* `StackShared`, `StackEach`, `StackRely` — the invariants: an `AcceptEvent` is in one place, and a
  session has one `AcceptEvent`.
* `connection_law` — the law, in every run without such a step.
-/

namespace CowboyPoker.ServerCore

open CowboyPoker.Found

variable {τ β : Type} [DecidableEq τ]

/-! ## The law -/

/-- Whatever connects a session is preceded by a success. -/
structure ConnectionLaw (s : TcpShared τ β) : Prop where
  connected : ∀ i, (s.sessions i).connected = true → ∃ t, (t, .completed i) ∈ s.log
  inSessions : ∀ i, (s.sessions i).inSessions = true → ∃ t, (t, .completed i) ∈ s.log
  stored : ∀ t i, s.log.count (t, .stored i) ≤ s.log.count (t, .completed i)
  added : ∀ t i, s.log.count (t, .added i) ≤ s.log.count (t, .completed i)
  onConnected : ∀ t i, s.log.count (t, .onConnected i) ≤ s.log.count (t, .completed i)

/-- A step in which a thread dequeues and dispatches the failed completion of a `ConnectEx`. -/
def DispatchesFailedConnect
    (e : Entry (Processes τ (TcpShared τ β) (TcpPc β)) (τ × TcpChoice β) (Option Unit)) : Prop :=
  e.before.pc e.input.1 = .outside ∧ e.before.shared.crashed = false ∧
    ∃ session numOfBytes errCode,
      e.input.2 = .dequeue (.connectEx session) numOfBytes (some errCode) ∧
        errCode ≠ waitTimeout ∧ 0 < e.before.shared.connects session ∧
        e.before.shared.connectOwner session = true

/-! ## The events of a connection -/

/-- The second event comes right behind the first in the life of a connection. -/
inductive Follows : ConnectionEvent → ConnectionEvent → Prop
  | stored (i : ℕ) : Follows (.completed i) (.stored i)
  | added (i : ℕ) : Follows (.stored i) (.added i)
  | onConnected (i : ℕ) : Follows (.added i) (.onConnected i)

/-- The event that the next step at a position records. -/
def TcpPc.announced : TcpPc β → Option ConnectionEvent
  | .session i _ (.processConnect .store) => some (.stored i)
  | .session i _ (.processConnect .addSession) => some (.added i)
  | .session i _ (.processConnect .onConnected) => some (.onConnected i)
  | _ => none

/-- How often an event is about to happen at a position. -/
def TcpPc.due (p : TcpPc β) (event : ConnectionEvent) : ℕ :=
  if p.announced = some event then 1 else 0

/-- A thread has seen no event more often than the one before it, the event to come included. -/
def Counts (t : τ) (log : List (τ × ConnectionEvent)) (p : TcpPc β) : Prop :=
  ∀ a b, Follows a b → log.count (t, b) + p.due b ≤ log.count (t, a)

section counts

variable {t : τ} {log : List (τ × ConnectionEvent)} {p p' : TcpPc β} {a b event : ConnectionEvent}

/-- An event follows on one event only. -/
theorem Follows.left_unique {a' : ConnectionEvent} (h : Follows a b) (h' : Follows a' b) :
    a' = a := by
  cases h <;> cases h' <;> rfl

omit [DecidableEq τ] in
/-- A thread that has announced nothing owes nothing. -/
theorem TcpPc.due_of_announced_none (h : p.announced = none) (b : ConnectionEvent) :
    p.due b = 0 := by
  simp only [TcpPc.due, h, reduceCtorEq, if_false]

/-- A position that announces nothing asks for the least. -/
theorem Counts.idle (h : Counts t log p) (hp' : p'.announced = none) : Counts t log p' := by
  intro a b hab
  rw [TcpPc.due_of_announced_none hp']
  exact (Nat.le_add_right _ _).trans (h a b hab)

/-- An event is announced that has happened less often than the one before it. -/
theorem Counts.announce (h : Counts t log p) (hp' : p'.announced = some event)
    (hlt : ∀ a, Follows a event → log.count (t, event) < log.count (t, a)) : Counts t log p' := by
  intro a b hab
  by_cases hb : event = b
  · subst hb
    rw [TcpPc.due, if_pos hp']
    exact hlt a hab
  · rw [TcpPc.due, hp', if_neg fun heq => hb (Option.some.inj heq)]
    exact (Nat.le_add_right _ _).trans (h a b hab)

/-- The count of an event after one more is recorded. -/
theorem count_record (u : τ) (event b : ConnectionEvent) :
    (log ++ [(t, event)]).count (u, b) =
      log.count (u, b) + if t = u ∧ event = b then 1 else 0 := by
  simp only [List.count_append, List.count_singleton, beq_iff_eq, Prod.mk.injEq]

/-- **One more event.** What was announced happens, and what follows it may be announced. -/
theorem Counts.record (h : Counts t log p)
    (hevent : ∀ a, Follows a event → p.announced = some event)
    (hp' : ∀ b, p'.announced = some b → Follows event b) :
    Counts t (log ++ [(t, event)]) p' := by
  intro a b hab
  have hcount := h a b hab
  rw [count_record, count_record]
  have hb : (if t = t ∧ event = b then 1 else 0) ≤ p.due b := by
    by_cases heq : event = b
    · subst heq
      simp only [TcpPc.due, hevent a hab, and_self, if_true, le_refl]
    · simp only [heq, and_false, if_false, Nat.zero_le]
  have ha : p'.due b ≤ if t = t ∧ event = a then 1 else 0 := by
    by_cases hnext : p'.announced = some b
    · have heq : event = a := hab.left_unique (hp' b hnext)
      simp only [TcpPc.due, hnext, heq, and_self, if_true, le_refl]
    · simp only [TcpPc.due, hnext, if_false, Nat.zero_le]
  omega

/-- An announced event has its predecessor in the log. -/
theorem Counts.mem (h : Counts t log p) (hp : p.announced = some b) (hab : Follows a b) :
    (t, a) ∈ log := by
  have hcount := h a b hab
  rw [TcpPc.due, if_pos hp] at hcount
  exact List.count_pos_iff.mp ((Nat.succ_pos _).trans_le hcount)

/-- An event in the log has its predecessor there. -/
theorem Counts.mem_of_mem (h : Counts t log p) (hmem : (t, b) ∈ log) (hab : Follows a b) :
    (t, a) ∈ log :=
  List.count_pos_iff.mp ((List.count_pos_iff.mpr hmem).trans_le
    ((Nat.le_add_right _ _).trans (h a b hab)))

end counts

/-! ## The invariants -/

/-- The `AcceptEvent` that a thread works on. -/
def TcpPc.holds : TcpPc β → Option ℕ
  | .registerAccept acceptEvent _ _ => some acceptEvent
  | .processAccept acceptEvent _ => some acceptEvent
  | .session _ (.processAccept acceptEvent) _ => some acceptEvent
  | _ => none

/-- The session that a thread in `ProcessAccept` has read. -/
def ProcessAcceptPc.Reads (i : ℕ) : ProcessAcceptPc → Prop
  | readSession => True
  | setUpdateAcceptSocket session => session = i
  | getpeername session => session = i

/-- Behind the test of the service's type in `RegisterConnect`. -/
def RegisterConnectPc.PastServiceType : RegisterConnectPc → Prop
  | check => False
  | checkServiceType => False
  | _ => True

/-- Of the shared state. -/
structure StackShared (c : ServiceConfig) (s : TcpShared τ β) : Prop where
  connected : ∀ i, (s.sessions i).connected = true → ∃ t, (t, .completed i) ∈ s.log
  inSessions : ∀ i, (s.sessions i).inSessions = true → ∃ t, (t, .completed i) ∈ s.log
  /-- An `AcceptEx` waits for the session of its event. -/
  accepting : ∀ e i, s.accepting e = some i → c.serviceType = .server ∧ e < s.acceptEvents ∧
    s.acceptSession e = some i ∧ s.socketConnected i = false
  /-- No two events have one session. -/
  acceptSession : ∀ e i, s.acceptSession e = some i → i < s.created ∧
    ∀ e', s.acceptSession e' = some i → e' = e
  /-- A server connects no session itself. -/
  connects : c.serviceType = .server → ∀ i, s.connects i = 0
  /-- A session that was not made is not connected. -/
  socketConnected : c.serviceType = .server → ∀ i, s.socketConnected i = true → i < s.created

/-- What a thread knows at its position. -/
def StackLocal (c : ServiceConfig) (t : τ) (s : TcpShared τ β) : TcpPc β → Prop
  | .startAccept _ => c.serviceType = .server
  | .registerAccept e _ (.acceptEx i) => s.acceptSession e = some i ∧ s.socketConnected i = false
  | .processAccept e q => ∃ i, s.acceptSession e = some i ∧ q.Reads i ∧
      (s.socketConnected i = true →
        s.log.count (t, .stored i) < s.log.count (t, .completed i))
  | .connect _ _ q => q.PastServiceType → c.serviceType = .client
  | _ => True

/-- Of a thread. -/
structure StackEach (c : ServiceConfig) (t : τ) (s : TcpShared τ β) (p : TcpPc β) : Prop where
  counts : Counts t s.log p
  known : StackLocal c t s p
  /-- The event that it works on waits for nothing. -/
  holds : ∀ e, p.holds = some e →
    c.serviceType = .server ∧ e < s.acceptEvents ∧ s.accepting e = none

/-- Two threads work on two events. -/
def StackApart (p q : TcpPc β) : Prop := ∀ e, p.holds = some e → q.holds ≠ some e

/-- The invariants of a run. -/
abbrev StackInv (c : ServiceConfig) : Processes τ (TcpShared τ β) (TcpPc β) → Prop :=
  LocalInv (StackShared c) (StackEach c) StackApart

/-- What a step of `t` leaves to the other threads. -/
structure StackRely (t : τ) (p : TcpPc β) (s s' : TcpShared τ β) : Prop where
  log : ∀ u, u ≠ t → ∀ event, s'.log.count (u, event) = s.log.count (u, event)
  acceptEvents : s.acceptEvents ≤ s'.acceptEvents
  acceptSession : ∀ e, e < s.acceptEvents → p.holds ≠ some e →
    s'.acceptSession e = s.acceptSession e
  accepting : ∀ e, p.holds ≠ some e → s.accepting e = none → s'.accepting e = none
  /-- A socket changes only if an operation for it was outstanding. -/
  socketConnected : ∀ i, s'.socketConnected i = s.socketConnected i ∨
    (∃ e, s.accepting e = some i) ∨ s.connects i ≠ 0

/-- What a step of a thread is required to do. -/
structure StackStep (c : ServiceConfig) (t : τ) (s : TcpShared τ β) (p : TcpPc β)
    (s' : TcpShared τ β) (p' : TcpPc β) : Prop where
  shared : StackShared c s'
  self : StackEach c t s' p'
  rely : StackRely t p s s'
  /-- Only an event that nobody works on is taken up. -/
  acquires : ∀ e, p'.holds = some e →
    p.holds = some e ∨ s.accepting e ≠ none ∨ s.acceptEvents ≤ e

section steps

variable {c : ServiceConfig} {t u : τ} {s s' : TcpShared τ β} {p p' q : TcpPc β}

/-- The socket of the session of an event that a thread works on stays as it is. -/
theorem StackRely.socket_eq (h : StackRely t p s s') (hs : StackShared c s) {e i : ℕ}
    (hserver : c.serviceType = .server) (hidle : s.accepting e = none)
    (hsession : s.acceptSession e = some i) : s'.socketConnected i = s.socketConnected i := by
  rcases h.socketConnected i with heq | ⟨e', haccepting⟩ | hconnects
  · exact heq
  · obtain ⟨-, -, hsession', -⟩ := hs.accepting e' i haccepting
    obtain rfl := (hs.acceptSession e i hsession).2 e' hsession'
    rw [hidle] at haccepting
    cases haccepting
  · exact absurd (hs.connects hserver i) hconnects

/-- **Non-interference.** What a thread knows, it still knows after a step of another one. -/
theorem StackEach.stable (h : StackEach c u s q) (hs : StackShared c s) (hrely : StackRely t p s s')
    (hut : u ≠ t) (hapart : StackApart p q) : StackEach c u s' q where
  counts a b hab := by
    rw [hrely.log u hut, hrely.log u hut]
    exact h.counts a b hab
  holds e he := by
    obtain ⟨hserver, hlt, hidle⟩ := h.holds e he
    exact ⟨hserver, hlt.trans_le hrely.acceptEvents,
      hrely.accepting e (fun hp => hapart e hp he) hidle⟩
  known := by
    have hkeep : ∀ e i, q.holds = some e → s.acceptSession e = some i →
        s'.acceptSession e = some i ∧ s'.socketConnected i = s.socketConnected i := by
      intro e i he hsession
      obtain ⟨hserver, hlt, hidle⟩ := h.holds e he
      exact ⟨(hrely.acceptSession e hlt fun hp => hapart e hp he).trans hsession,
        hrely.socket_eq hs hserver hidle hsession⟩
    have hknown := h.known
    cases q with
    | outside => exact trivial
    | clientStart i => exact trivial
    | startAccept q => exact hknown
    | registerAccept e caller q =>
        cases q with
        | createSession => exact trivial
        | acceptEx i =>
            obtain ⟨hsession, hsocket⟩ := hknown
            obtain ⟨hsession', hsocket'⟩ := hkeep e i rfl hsession
            exact ⟨hsession', hsocket'.trans hsocket⟩
    | processAccept e q =>
        obtain ⟨i, hsession, hreads, hsocket⟩ := hknown
        obtain ⟨hsession', hsocket'⟩ := hkeep e i rfl hsession
        refine ⟨i, hsession', hreads, ?_⟩
        rw [hsocket', hrely.log u hut, hrely.log u hut]
        exact hsocket
    | connect i caller q => exact hknown
    | session i caller q => exact trivial

/-- **The step lemma.** -/
theorem StackInv.update {s : Processes τ (TcpShared τ β) (TcpPc β)} (h : StackInv c s)
    (hstep : StackStep c t s.shared (s.pc t) s' p') :
    StackInv c ⟨s', Function.update s.pc t p'⟩ := by
  refine LocalInv.update h hstep.shared hstep.self fun u hu => ?_
  have hapart : StackApart p' (s.pc u) := by
    intro e he hue
    obtain ⟨-, hlt, hidle⟩ := (h.each u).holds e hue
    rcases hstep.acquires e he with hte | hbusy | hnew
    · exact h.pairs t u (Ne.symm hu) e hte hue
    · exact hbusy hidle
    · exact absurd hlt (not_lt.mpr hnew)
  exact ⟨(h.each u).stable h.shared hstep.rely hu (h.pairs t u (Ne.symm hu)), hapart,
    fun e hue he => hapart e he hue⟩

end steps

/-! ## Steps -/

/-- A step that sets no `AcceptEvent` to work. -/
structure StackFrame (c : ServiceConfig) (t : τ) (s s' : TcpShared τ β) : Prop where
  log : ∃ events, s'.log = s.log ++ events ∧ ∀ x ∈ events, x.1 = t
  created : s.created ≤ s'.created
  acceptEvents : s.acceptEvents ≤ s'.acceptEvents
  acceptSession : s'.acceptSession = s.acceptSession
  accepting : s'.accepting = s.accepting
  connects : c.serviceType = .server → s'.connects = s.connects
  socketConnected : ∀ i, s'.socketConnected i = s.socketConnected i ∨ s.connects i ≠ 0
  connected : ∀ i, (s'.sessions i).connected = true →
    (s.sessions i).connected = true ∨ (t, .completed i) ∈ s.log
  inSessions : ∀ i, (s'.sessions i).inSessions = true →
    (s.sessions i).inSessions = true ∨ (t, .completed i) ∈ s.log

section steps

variable {c : ServiceConfig} {t : τ} {s s' : TcpShared τ β} {p p' : TcpPc β} {r : CallResult}

omit [DecidableEq τ] in
/-- The frame of a step that does nothing. -/
theorem StackFrame.refl (c : ServiceConfig) (t : τ) (s : TcpShared τ β) : StackFrame c t s s where
  log := ⟨[], (List.append_nil _).symm, fun _ hx => absurd hx List.not_mem_nil⟩
  created := le_rfl
  acceptEvents := le_rfl
  acceptSession := rfl
  accepting := rfl
  connects _ := rfl
  socketConnected _ := .inl rfl
  connected _ := .inl
  inSessions _ := .inl

/-- What one thread records does not count for another. -/
theorem count_of_append {events log : List (τ × ConnectionEvent)} (h : ∀ x ∈ events, x.1 = t) {u : τ}
    (hut : u ≠ t) (event : ConnectionEvent) :
    (log ++ events).count (u, event) = log.count (u, event) := by
  rw [List.count_append, List.count_eq_zero_of_not_mem fun hmem => hut (h _ hmem), Nat.add_zero]

/-- A step within the frame keeps the invariants, if the thread knows what its new position asks. -/
theorem StackStep.of_frame (hs : StackShared c s) (h : StackEach c t s p)
    (hframe : StackFrame c t s s') (hcounts : Counts t s'.log p') (hknown : StackLocal c t s' p')
    (hholds : ∀ e, p'.holds = some e → p.holds = some e ∨
      (c.serviceType = .server ∧ s.acceptEvents ≤ e ∧ e < s'.acceptEvents)) :
    StackStep c t s p s' p' := by
  obtain ⟨events, hlog, hevents⟩ := hframe.log
  have hmem : ∀ x ∈ s.log, x ∈ s'.log := by
    intro x hx
    rw [hlog]
    exact List.mem_append_left events hx
  have hsocket : c.serviceType = .server →
      ∀ i, s'.socketConnected i = s.socketConnected i := fun hserver i =>
    (hframe.socketConnected i).resolve_right fun hconnects => hconnects (hs.connects hserver i)
  refine ⟨⟨?_, ?_, ?_, ?_, ?_, ?_⟩, ⟨hcounts, hknown, ?_⟩, ⟨?_, hframe.acceptEvents, ?_, ?_, ?_⟩, ?_⟩
  · intro i hi
    rcases hframe.connected i hi with hold | hcompleted
    · obtain ⟨u, hu⟩ := hs.connected i hold
      exact ⟨u, hmem _ hu⟩
    · exact ⟨t, hmem _ hcompleted⟩
  · intro i hi
    rcases hframe.inSessions i hi with hold | hcompleted
    · obtain ⟨u, hu⟩ := hs.inSessions i hold
      exact ⟨u, hmem _ hu⟩
    · exact ⟨t, hmem _ hcompleted⟩
  · intro e i haccepting
    rw [hframe.accepting] at haccepting
    obtain ⟨hserver, hlt, hsession, hfalse⟩ := hs.accepting e i haccepting
    refine ⟨hserver, hlt.trans_le hframe.acceptEvents, ?_, (hsocket hserver i).trans hfalse⟩
    rw [hframe.acceptSession]
    exact hsession
  · intro e i hsession
    rw [hframe.acceptSession] at hsession ⊢
    obtain ⟨hlt, hunique⟩ := hs.acceptSession e i hsession
    exact ⟨hlt.trans_le hframe.created, hunique⟩
  · intro hserver i
    rw [hframe.connects hserver]
    exact hs.connects hserver i
  · intro hserver i hi
    rw [hsocket hserver i] at hi
    exact (hs.socketConnected hserver i hi).trans_le hframe.created
  · intro e he
    rw [hframe.accepting]
    rcases hholds e he with hold | ⟨hserver, hle, hlt⟩
    · obtain ⟨hserver, hlt, hidle⟩ := h.holds e hold
      exact ⟨hserver, hlt.trans_le hframe.acceptEvents, hidle⟩
    · refine ⟨hserver, hlt, Option.eq_none_iff_forall_ne_some.mpr fun i hi => ?_⟩
      exact absurd (hs.accepting e i hi).2.1 (not_lt.mpr hle)
  · intro u hut event
    rw [hlog]
    exact count_of_append hevents hut event
  · intro e _ _
    rw [hframe.acceptSession]
  · intro e _ hidle
    rw [hframe.accepting]
    exact hidle
  · intro i
    rcases hframe.socketConnected i with heq | hconnects
    · exact .inl heq
    · exact .inr (.inr hconnects)
  · intro e he
    rcases hholds e he with hold | ⟨-, hle, -⟩
    · exact .inl hold
    · exact .inr (.inr hle)

/-- A step that records nothing and leads to a position that announces nothing. -/
theorem StackStep.quiet (hs : StackShared c s) (h : StackEach c t s p)
    (hframe : StackFrame c t s s') (hlog : s'.log = s.log) (hannounced : p'.announced = none)
    (hknown : StackLocal c t s' p') (hholds : ∀ e, p'.holds = some e → p.holds = some e) :
    StackStep c t s p s' p' := by
  refine .of_frame hs h hframe ?_ hknown fun e he => .inl (hholds e he)
  rw [hlog]
  exact h.counts.idle hannounced

/-- A step that changes nothing. -/
theorem StackStep.move (hs : StackShared c s) (h : StackEach c t s p)
    (hannounced : p'.announced = none) (hknown : StackLocal c t s p')
    (hholds : ∀ e, p'.holds = some e → p.holds = some e) : StackStep c t s p s p' :=
  .quiet hs h (.refl c t s) rfl hannounced hknown hholds

/-- A step that ends the program. -/
theorem StackStep.crash (hs : StackShared c s) (h : StackEach c t s p) :
    StackStep c t s p { s with crashed := true } .outside :=
  .quiet hs h { StackFrame.refl c t s with } rfl rfl trivial fun _ he => by cases he

/-- `CreateSession` on behalf of a client. -/
theorem StackStep.created (hs : StackShared c s) (h : StackEach c t s p)
    (hannounced : p'.announced = none) (hknown : StackLocal c t s p') (hheld : p'.holds = none) :
    StackStep c t s p { s with created := s.created + 1 } p' := by
  refine .quiet hs h { StackFrame.refl c t s with created := Nat.le_succ _ } rfl hannounced ?_ ?_
  · cases p' <;> exact hknown
  · intro e he
    rw [hheld] at he
    cases he

omit [DecidableEq τ] in
/-- Where a partial map has a value after one more was stored. -/
theorem update_eq_some {f : ℕ → Option ℕ} {e e' v i : ℕ}
    (h : Function.update f e (some v) e' = some i) : (e' = e ∧ v = i) ∨ (e' ≠ e ∧ f e' = some i) := by
  by_cases he : e' = e
  · subst he
    rw [Function.update_self] at h
    exact .inl ⟨rfl, Option.some.inj h⟩
  · rw [Function.update_of_ne he] at h
    exact .inr ⟨he, h⟩

/-- A fresh session for the event that a thread works on. -/
theorem StackStep.acceptSession {e : ℕ} {caller : RegisterAcceptCaller} (hs : StackShared c s)
    (h : StackEach c t s (.registerAccept e caller .createSession)) :
    StackStep c t s (.registerAccept e caller .createSession)
      { s with
        created := s.created + 1
        acceptSession := Function.update s.acceptSession e (some s.created) }
      (.registerAccept e caller (.acceptEx s.created)) := by
  obtain ⟨hserver, hlt, hidle⟩ := h.holds e rfl
  have hfresh : s.socketConnected s.created = false :=
    Bool.eq_false_iff.mpr fun hi => lt_irrefl _ (hs.socketConnected hserver _ hi)
  refine ⟨{ hs with accepting := ?_, acceptSession := ?_, socketConnected := ?_ },
    ⟨h.counts.idle rfl, ⟨Function.update_self .., hfresh⟩, h.holds⟩,
    ⟨fun u _ event => rfl, le_rfl, ?_, fun e _ hidle => hidle, fun i => .inl rfl⟩,
    fun e' he' => .inl he'⟩
  · intro e' i haccepting
    obtain ⟨-, hlt', hsession, hsocket⟩ := hs.accepting e' i haccepting
    have hne : e' ≠ e := by
      rintro rfl
      rw [hidle] at haccepting
      cases haccepting
    exact ⟨hserver, hlt', (Function.update_of_ne hne _ _).trans hsession, hsocket⟩
  · intro e' i hsession
    rcases update_eq_some hsession with ⟨rfl, rfl⟩ | ⟨-, hsession⟩
    · refine ⟨Nat.lt_succ_self _, fun e'' hsession'' => ?_⟩
      rcases update_eq_some hsession'' with ⟨heq, -⟩ | ⟨-, hsession''⟩
      · exact heq
      · exact absurd (hs.acceptSession e'' _ hsession'').1 (lt_irrefl _)
    · obtain ⟨hi, hunique⟩ := hs.acceptSession e' i hsession
      refine ⟨hi.trans (Nat.lt_succ_self _), fun e'' hsession'' => ?_⟩
      rcases update_eq_some hsession'' with ⟨-, rfl⟩ | ⟨-, hsession''⟩
      · exact absurd hi (lt_irrefl _)
      · exact hunique e'' hsession''
  · exact fun _ i hi => (hs.socketConnected hserver i hi).trans (Nat.lt_succ_self _)
  · intro e' _ hheld
    have hne : e' ≠ e := by
      rintro rfl
      exact hheld rfl
    exact Function.update_of_ne hne _ _

/-- `AcceptEx` waits. -/
theorem StackStep.accepting {e i : ℕ} {caller : RegisterAcceptCaller} (hs : StackShared c s)
    (h : StackEach c t s (.registerAccept e caller (.acceptEx i))) :
    StackStep c t s (.registerAccept e caller (.acceptEx i))
      { s with accepting := Function.update s.accepting e (some i) } caller.return := by
  obtain ⟨hserver, hlt, -⟩ := h.holds e rfl
  obtain ⟨hsession, hsocket⟩ := h.known
  have hfree : (caller.return : TcpPc β).holds = none := by
    cases caller <;> rfl
  refine ⟨{ hs with accepting := ?_ }, ⟨h.counts.idle ?_, ?_, ?_⟩,
    ⟨fun u _ event => rfl, le_rfl, fun e _ _ => rfl, ?_, fun i => .inl rfl⟩, ?_⟩
  · intro e' i' haccepting
    rcases update_eq_some haccepting with ⟨rfl, rfl⟩ | ⟨-, haccepting⟩
    · exact ⟨hserver, hlt, hsession, hsocket⟩
    · exact hs.accepting e' i' haccepting
  · cases caller <;> rfl
  · cases caller with
    | processAccept => exact trivial
    | startAccept n => exact hserver
  · intro e' he'
    rw [hfree] at he'
    cases he'
  · intro e' hheld hidle
    have hne : e' ≠ e := by
      rintro rfl
      exact hheld rfl
    exact (Function.update_of_ne hne _ _).trans hidle
  · intro e' he'
    rw [hfree] at he'
    cases he'

/-- What `RegisterAccept` does keeps the invariant. -/
theorem registerAcceptStep_step {e : ℕ} {caller : RegisterAcceptCaller} {q : RegisterAcceptPc}
    (hs : StackShared c s) (h : StackEach c t s (.registerAccept e caller q))
    (hstep : registerAcceptStep s e caller r q = some (s', p')) :
    StackStep c t s (.registerAccept e caller q) s' p' := by
  cases q with
  | createSession =>
      simp only [registerAcceptStep, TcpShared.createSession] at hstep
      by_cases hr : r = .ok
      · rw [if_pos hr] at hstep
        cases hstep
        exact .acceptSession hs h
      · rw [if_neg hr] at hstep
        cases hstep
        exact .crash hs h
  | acceptEx i =>
      simp only [registerAcceptStep] at hstep
      split at hstep <;> cases hstep
      · exact .accepting hs h
      · exact .move hs h rfl trivial fun _ he => he

/-- What `ProcessAccept` does keeps the invariant. -/
theorem processAcceptStep_step {e : ℕ} {q : ProcessAcceptPc} (hs : StackShared c s)
    (h : StackEach c t s (.processAccept e q))
    (hstep : processAcceptStep s e r q = some (s', p')) :
    StackStep c t s (.processAccept e q) s' p' := by
  have hretry : StackStep c t s (.processAccept e q) s
      (.registerAccept e .processAccept .createSession) :=
    .move hs h rfl trivial fun _ he => he
  obtain ⟨i, hsession, hreads, hsocket⟩ := h.known
  cases q with
  | readSession =>
      simp only [processAcceptStep, hsession] at hstep
      cases hstep
      exact .move hs h rfl ⟨i, hsession, rfl, hsocket⟩ fun _ he => he
  | setUpdateAcceptSocket session =>
      cases hstep
      split
      · exact .move hs h rfl ⟨i, hsession, hreads, hsocket⟩ fun _ he => he
      · exact hretry
  | getpeername session =>
      cases hstep
      obtain rfl : session = i := hreads
      split
      · rename_i hok
        -- the socket is connected, so the completion was a success
        refine .of_frame hs h (.refl c t s) (h.counts.announce rfl fun a hab => ?_) trivial
          fun _ he => .inl he
        cases hab
        exact hsocket hok.2
      · exact hretry

/-- What `StartAccept` does keeps the invariant. -/
theorem startAcceptStep_step {q : StartAcceptPc} (hs : StackShared c s)
    (h : StackEach c t s (.startAccept q)) (hstep : startAcceptStep c s r q = some (s', p')) :
    StackStep c t s (.startAccept q) s' p' := by
  have hserver : c.serviceType = .server := h.known
  have hreturn : StackStep c t s (.startAccept q) s .outside :=
    .move hs h rfl trivial fun _ he => by cases he
  cases q with
  | listen =>
      cases hstep
      split
      · exact .move hs h rfl hserver fun _ he => by cases he
      · exact hreturn
  | loop i =>
      simp only [startAcceptStep] at hstep
      split at hstep <;> cases hstep
      · refine .of_frame hs h { StackFrame.refl c t s with acceptEvents := Nat.le_succ _ }
          (h.counts.idle rfl) trivial fun e he => .inr ⟨hserver, ?_⟩
        obtain rfl : s.acceptEvents = e := Option.some.inj he
        exact ⟨le_rfl, Nat.lt_succ_self _⟩
      · exact hreturn

/-- What `ClientService::Start` does keeps the invariant. -/
theorem clientStartStep_step {i : ℤ} (hs : StackShared c s) (h : StackEach c t s (.clientStart i))
    (hstep : clientStartStep c s r i = some (s', p')) :
    StackStep c t s (.clientStart i) s' p' := by
  simp only [clientStartStep, TcpShared.createSession] at hstep
  by_cases hi : i < c.maxSessionCount
  · rw [if_pos hi] at hstep
    by_cases hr : r = .ok
    · rw [if_pos hr] at hstep
      cases hstep
      exact .created hs h rfl (fun hpast => hpast.elim) rfl
    · rw [if_neg hr] at hstep
      cases hstep
      exact .crash hs h
  · rw [if_neg hi] at hstep
    cases hstep
    exact .move hs h rfl trivial fun _ he => by cases he

/-- What `RegisterConnect` does keeps the invariant. -/
theorem registerConnectStep_step {i : ℕ} {caller : ConnectCaller} {q : RegisterConnectPc}
    (hs : StackShared c s) (h : StackEach c t s (.connect i caller q))
    (hstep : registerConnectStep c s i caller r q = some (s', p')) :
    StackStep c t s (.connect i caller q) s' p' := by
  have hreturn : StackStep c t s (.connect i caller q) s .outside :=
    .move hs h rfl trivial fun _ he => by cases he
  have hknown : q.PastServiceType → c.serviceType = .client := h.known
  cases q with
  | check =>
      cases hstep
      split
      · exact hreturn
      · exact .move hs h rfl (fun hpast => hpast.elim) fun _ he => by cases he
  | checkServiceType =>
      cases hstep
      split
      · rename_i hclient
        exact .move hs h rfl (fun _ => hclient) fun _ he => by cases he
      · exact hreturn
  | bind =>
      cases hstep
      split
      · exact .move hs h rfl hknown fun _ he => by cases he
      · exact hreturn
  | init =>
      cases hstep
      exact .quiet hs h { StackFrame.refl c t s with } rfl rfl hknown fun _ he => by cases he
  | connectEx =>
      simp only [registerConnectStep] at hstep
      split at hstep <;> cases hstep
      · have hclient : c.serviceType = .client := hknown trivial
        refine .quiet hs h { StackFrame.refl c t s with connects := fun hserver => ?_ } rfl ?_ ?_ ?_
        · rw [hclient] at hserver
          cases hserver
        · cases caller <;> rfl
        · cases caller <;> exact trivial
        · intro e he
          cases caller <;> cases he
      · exact .move hs h rfl hknown fun _ he => by cases he
  | clearOwner =>
      cases hstep
      exact .quiet hs h { StackFrame.refl c t s with } rfl rfl trivial fun _ he => by cases he

/-! ### Members of a session -/

section session

variable {i : ℕ} {caller : SessionCaller} {q : SessionPc β} {x : SessionShared τ β}

omit [DecidableEq τ] in
/-- A thread in a session outside of `ProcessConnect` has announced nothing. -/
theorem announced_ofSession (hq : ¬ q.Connecting) :
    (TcpPc.ofSession i caller q).announced = none := by
  cases q with
  | outside => cases caller <;> rfl
  | processConnect q => exact absurd trivial hq
  | _ => rfl

/-- A thread in a session knows nothing of the listener and the service. -/
theorem stackLocal_ofSession : StackLocal c t s (.ofSession i caller q) := by
  cases q with
  | outside => cases caller <;> exact trivial
  | _ => exact trivial

omit [DecidableEq τ] in
/-- A thread in a session, or on the way back from it, serves the same event. -/
theorem holds_ofSession (q' : SessionPc β) :
    (TcpPc.ofSession i caller q).holds = (TcpPc.session i caller q').holds := by
  cases q <;> cases caller <;> rfl

omit [DecidableEq τ] in
/-- The service around a session records what the position announces. -/
theorem around_log (s : TcpShared τ β) (t : τ) (i : ℕ) (caller : SessionCaller) (q : SessionPc β) :
    (s.around t i q).log =
      s.log ++ ((TcpPc.session i caller q).announced.toList.map fun event => (t, event)) := by
  cases q with
  | processConnect q => cases q <;> rfl
  | processDisconnect q =>
      cases q with
      | releaseSession =>
          simp only [TcpShared.around, TcpPc.announced]
          split <;> exact (List.append_nil _).symm
      | _ => exact (List.append_nil _).symm
  | _ => exact (List.append_nil _).symm

omit [DecidableEq τ] in
/-- A member of a session works within the frame, and connects no other session. -/
theorem StackFrame.session (hconnected : x.connected = true →
      (s.sessions i).connected = true ∨ (t, .completed i) ∈ s.log)
    (hsessions : x.inSessions = true →
      (s.sessions i).inSessions = true ∨ (t, .completed i) ∈ s.log) :
    StackFrame c t s ((s.around t i q).setSession i x) := by
  have haround : StackFrame c t s (s.around t i q) ∧ (s.around t i q).sessions = s.sessions := by
    have hlog : ∃ events, (s.around t i q).log = s.log ++ events ∧ ∀ y ∈ events, y.1 = t := by
      refine ⟨_, around_log s t i .leave q, fun y hy => ?_⟩
      obtain ⟨event, -, rfl⟩ := List.mem_map.mp hy
      rfl
    cases q with
    | processConnect q => cases q <;> exact ⟨{ StackFrame.refl c t s with log := hlog }, rfl⟩
    | processDisconnect q =>
        cases q with
        | releaseSession =>
            simp only [TcpShared.around] at hlog ⊢
            split <;> exact ⟨{ StackFrame.refl c t s with }, rfl⟩
        | _ => exact ⟨.refl c t s, rfl⟩
    | _ => exact ⟨.refl c t s, rfl⟩
  obtain ⟨hframe, heq⟩ := haround
  refine { hframe with connected := fun j hj => ?_, inSessions := fun j hj => ?_ }
  · by_cases hji : j = i
    · subst hji
      simp only [TcpShared.setSession, Function.update_self] at hj
      exact hconnected hj
    · simp only [TcpShared.setSession, Function.update_of_ne hji, heq] at hj
      exact .inl hj
  · by_cases hji : j = i
    · subst hji
      simp only [TcpShared.setSession, Function.update_self] at hj
      exact hsessions hj
    · simp only [TcpShared.setSession, Function.update_of_ne hji, heq] at hj
      exact .inl hj

/-- A step of `ProcessConnect`: what the position announces is recorded. -/
theorem StackStep.processConnect {pc : ProcessConnectPc} {event : ConnectionEvent}
    (hs : StackShared c s) (h : StackEach c t s (.session i caller (.processConnect pc)))
    (hannounced : (TcpPc.session i caller (.processConnect pc) : TcpPc β).announced = some event)
    (hnext : ∀ b, (TcpPc.ofSession i caller q).announced = some b → Follows event b)
    (hconnected : x.connected = true →
      (s.sessions i).connected = true ∨ (t, .completed i) ∈ s.log)
    (hsessions : x.inSessions = true →
      (s.sessions i).inSessions = true ∨ (t, .completed i) ∈ s.log) :
    StackStep c t s (.session i caller (.processConnect pc))
      ((s.around t i (.processConnect pc)).setSession i x) (.ofSession i caller q) := by
  refine .of_frame hs h (.session hconnected hsessions) ?_ stackLocal_ofSession fun e he => ?_
  · have hlog : ((s.around t i (.processConnect pc)).setSession i x).log =
        s.log ++ [(t, event)] := by
      refine (around_log s t i caller (.processConnect pc)).trans ?_
      rw [hannounced]
      rfl
    rw [hlog]
    exact h.counts.record (fun _ _ => hannounced) hnext
  · rw [holds_ofSession (.processConnect pc)] at he
    exact .inl he

/-- What a step of a session does keeps the invariant. -/
theorem sessionStep_step (hs : StackShared c s) (h : StackEach c t s (.session i caller q))
    (hstep : sessionStep t s i caller r q = some (s', p')) :
    StackStep c t s (.session i caller q) s' p' := by
  obtain ⟨⟨x, q'⟩, hnext, heq⟩ := Option.map_eq_some_iff.mp hstep
  cases heq
  by_cases hq : q.Connecting
  · cases q with
    | processConnect pc =>
        cases pc with
        | store =>
            cases hnext
            refine .processConnect hs h rfl (fun b hb => ?_)
              (fun _ => .inr (h.counts.mem rfl (.stored i))) .inl
            cases hb
            exact .added i
        | addSession =>
            cases hnext
            have hstored := h.counts.mem rfl (.added i)
            refine .processConnect hs h rfl (fun b hb => ?_) .inl
              fun _ => .inr (h.counts.mem_of_mem hstored (.stored i))
            cases hb
            exact .onConnected i
        | onConnected =>
            cases hnext
            exact .processConnect hs h rfl (fun b hb => by cases hb) .inl .inl
    | _ => exact hq.elim
  · have hquiet := nextStep_quiet hq hnext
    have hframe : StackFrame c t s ((s.around t i q).setSession i x) :=
      .session (fun hx => .inl (hquiet.connected hx)) fun hx => .inl (hquiet.inSessions hx)
    refine .quiet hs h hframe ?_ (announced_ofSession hquiet.connecting) stackLocal_ofSession
      fun e he => ?_
    · refine (around_log s t i caller q).trans ?_
      have hnone : (TcpPc.session i caller q).announced = none := by
        cases q with
        | processConnect pc => exact absurd trivial hq
        | _ => rfl
      rw [hnone]
      exact List.append_nil _
    · rw [holds_ofSession q] at he
      exact he

end session

/-! ### Completions -/

/-- A step may as well leave the stack. -/
theorem StackStep.leave (h : StackStep c t s p s' p') : StackStep c t s p s' .outside where
  shared := h.shared
  self := ⟨h.self.counts.idle rfl, trivial, fun _ he => by cases he⟩
  rely := h.rely
  acquires _ he := by cases he

/-- A step may as well end the program. -/
theorem StackStep.abort (h : StackStep c t s p s' p') :
    StackStep c t s p { s' with crashed := true } .outside where
  shared := { h.shared with }
  self := ⟨h.self.counts.idle rfl, trivial, fun _ he => by cases he⟩
  rely := { h.rely with }
  acquires _ he := by cases he

/-- A `ConnectEx` completes successfully. -/
theorem StackStep.connected {i : ℕ} (hs : StackShared c s) (h : StackEach c t s .outside)
    (hconnects : s.connects i ≠ 0) :
    StackStep c t s .outside
      ({ s with connects := Function.update s.connects i (s.connects i - 1) }.succeed t i)
      (.session i .leave (.processConnect .store)) := by
  refine .of_frame hs h { StackFrame.refl c t s with log := ?_, connects := ?_, socketConnected := ?_ }
    ?_ trivial fun e he => by cases he
  · exact ⟨_, rfl, fun y hy => by rw [List.mem_singleton.mp hy]⟩
  · exact fun hserver => absurd (hs.connects hserver i) hconnects
  · intro j
    by_cases hji : j = i
    · subst hji
      exact .inr hconnects
    · exact .inl (Function.update_of_ne hji _ _)
  · refine h.counts.record (fun a ha => by cases ha) fun b hb => ?_
    cases hb
    exact .stored i

/-- A `ConnectEx` fails, and its completion is not dispatched. -/
theorem StackStep.disconnected {i : ℕ} (hs : StackShared c s) (h : StackEach c t s .outside)
    (hconnects : s.connects i ≠ 0) :
    StackStep c t s .outside
      { s with connects := Function.update s.connects i (s.connects i - 1) } .outside :=
  .quiet hs h { StackFrame.refl c t s with
    connects := fun hserver => absurd (hs.connects hserver i) hconnects } rfl rfl trivial
    fun _ he => he

/-- An `AcceptEx` completes. -/
theorem StackStep.accepted {e i : ℕ} {success : Bool} (hs : StackShared c s)
    (h : StackEach c t s .outside) (haccepting : s.accepting e = some i)
    (heq : s' = { s with accepting := Function.update s.accepting e none }) :
    StackStep c t s .outside (if success then s'.succeed t i else s')
      (.processAccept e .readSession) := by
  obtain ⟨hserver, hlt, hsession, hsocket⟩ := hs.accepting e i haccepting
  obtain ⟨hi, hunique⟩ := hs.acceptSession e i hsession
  -- another event waits for another session
  have hother : ∀ e' i', Function.update s.accepting e none e' = some i' →
      e' ≠ e ∧ s.accepting e' = some i' ∧ i' ≠ i := by
    intro e' i' haccepting'
    have hne : e' ≠ e := by
      rintro rfl
      rw [Function.update_self] at haccepting'
      cases haccepting'
    rw [Function.update_of_ne hne] at haccepting'
    refine ⟨hne, haccepting', ?_⟩
    rintro rfl
    exact hne (hunique e' (hs.accepting e' _ haccepting').2.2.1)
  have hidle : ∀ e', s.accepting e' = none → Function.update s.accepting e none e' = none := by
    intro e' he'
    by_cases hne : e' = e
    · rw [hne, Function.update_self]
    · rwa [Function.update_of_ne hne]
  have hholds : ∀ e', (TcpPc.processAccept e .readSession : TcpPc β).holds = some e' →
      c.serviceType = .server ∧ e' < s.acceptEvents ∧
        Function.update s.accepting e none e' = none := by
    intro e' he'
    cases he'
    exact ⟨hserver, hlt, Function.update_self ..⟩
  have hacquires : ∀ e', (TcpPc.processAccept e .readSession : TcpPc β).holds = some e' →
      (TcpPc.outside : TcpPc β).holds = some e' ∨ s.accepting e' ≠ none ∨ s.acceptEvents ≤ e' := by
    intro e' he'
    cases he'
    rw [haccepting]
    exact .inr (.inl (Option.some_ne_none i))
  have hcounts := h.counts
  subst heq
  cases success with
  | false =>
      refine ⟨{ hs with accepting := ?_ }, ⟨hcounts.idle rfl, ⟨i, hsession, trivial, ?_⟩, hholds⟩,
        ⟨fun u _ event => rfl, le_rfl, fun _ _ _ => rfl, fun e' _ => hidle e', fun j => .inl rfl⟩,
        hacquires⟩
      · intro e' i' haccepting'
        exact hs.accepting e' i' (hother e' i' haccepting').2.1
      · intro hconnected
        exact absurd (hsocket.symm.trans hconnected) Bool.false_ne_true
  | true =>
      refine ⟨⟨?_, ?_, ?_, hs.acceptSession, hs.connects, ?_⟩,
        ⟨hcounts.record (fun a ha => by cases ha) (fun b hb => by cases hb),
          ⟨i, hsession, trivial, fun _ => ?_⟩, hholds⟩,
        ⟨?_, le_rfl, fun _ _ _ => rfl, fun e' _ => hidle e', ?_⟩, hacquires⟩
      · intro j hj
        obtain ⟨u, hu⟩ := hs.connected j hj
        exact ⟨u, List.mem_append_left _ hu⟩
      · intro j hj
        obtain ⟨u, hu⟩ := hs.inSessions j hj
        exact ⟨u, List.mem_append_left _ hu⟩
      · intro e' i' haccepting'
        obtain ⟨-, hold, hne⟩ := hother e' i' haccepting'
        obtain ⟨-, hlt', hsession', hsocket'⟩ := hs.accepting e' i' hold
        exact ⟨hserver, hlt', hsession', (Function.update_of_ne hne _ _).trans hsocket'⟩
      · intro _ j hj
        by_cases hji : j = i
        · exact hji ▸ hi
        · exact hs.socketConnected hserver j ((Function.update_of_ne hji _ _).symm.trans hj)
      · have hcount := hcounts _ _ (.stored i)
        simp only [TcpShared.succeed, TcpShared.record, count_record, reduceCtorEq, and_false,
          if_false, and_self, if_true]
        omega
      · intro u hut event
        exact count_of_append (fun y hy => by rw [List.mem_singleton.mp hy]) hut event
      · intro j
        by_cases hji : j = i
        · exact .inr (.inl ⟨e, hji ▸ haccepting⟩)
        · exact .inl (Function.update_of_ne hji _ _)

/-- A thread enters a session through the completion of one of its own operations. -/
theorem StackStep.enter {i : ℕ} {k : SessionChoice β} {x : SessionShared τ β} {q : SessionPc β}
    (hs : StackShared c s) (h : StackEach c t s .outside) (hconnected : k ≠ .connected)
    (hsend : ∀ sendBuffer, k ≠ .send sendBuffer) (henter : enterStep (s.sessions i) k = some (x, q)) :
    StackStep c t s .outside (s.setSession i x) (.session i .leave q) := by
  have hquiet := enterStep_quiet hconnected hsend henter
  have hframe : StackFrame c t s ((s.around t i (.outside : SessionPc β)).setSession i x) :=
    .session (fun hx => .inl (hquiet.connected hx)) fun hx => .inl (hquiet.inSessions hx)
  refine .quiet hs h hframe rfl ?_ trivial fun _ he => by cases he
  cases q with
  | processConnect q => exact absurd trivial hquiet.connecting
  | _ => rfl

/-- What the dequeued completion of an operation does keeps the invariant. -/
theorem completeStep_step {op : TcpOperation} {numOfBytes : ℕ} {success : Bool}
    (hs : StackShared c s) (h : StackEach c t s .outside)
    (hsuccess : ∀ i, op = .connectEx i → success = true)
    (hstep : completeStep t s numOfBytes success op = some (s', p')) :
    StackStep c t s .outside s' p' := by
  cases op with
  | connectEx i =>
      obtain ⟨hconnects, heq⟩ := Option.ite_none_left_eq_some.mp hstep
      rw [hsuccess i rfl] at heq
      cases heq
      exact .connected hs h hconnects
  | acceptEx e =>
      simp only [completeStep] at hstep
      split at hstep
      · cases hstep
      · rename_i i haccepting
        cases hstep
        exact .accepted hs h haccepting rfl
  | wsaRecv i =>
      obtain ⟨⟨x, q⟩, henter, heq⟩ := Option.map_eq_some_iff.mp hstep
      cases heq
      exact .enter hs h (by simp) (by simp) henter
  | wsaSend i =>
      obtain ⟨⟨x, q⟩, henter, heq⟩ := Option.map_eq_some_iff.mp hstep
      cases heq
      exact .enter hs h (by simp) (by simp) henter
  | disconnectEx i =>
      obtain ⟨⟨x, q⟩, henter, heq⟩ := Option.map_eq_some_iff.mp hstep
      cases heq
      exact .enter hs h (by simp) (by simp) henter

/-- Dispatching a completion keeps the invariants, unless it is the failed one of a `ConnectEx`. -/
theorem dispatchStep_step {op : TcpOperation} {numOfBytes : ℕ} {errCode : Option ℕ}
    (hs : StackShared c s) (h : StackEach c t s .outside)
    (hcond : ∀ i code, op = .connectEx i → errCode = some code → code ≠ waitTimeout →
      0 < s.connects i → s.connectOwner i ≠ true)
    (hstep : dispatchStep t s op numOfBytes errCode = some (s', p')) :
    StackStep c t s .outside s' p' := by
  obtain ⟨s₁, p₁, hcomplete, hends⟩ := dispatchStep_eq_some hstep
  -- what the kernel has done, when the event goes no further
  have hdropped : StackStep c t s .outside s₁ .outside := by
    by_cases hfailed : ∃ i, op = .connectEx i ∧ errCode.isNone = false
    · obtain ⟨i, rfl, hfailed⟩ := hfailed
      obtain ⟨hconnects, heq₁⟩ := Option.ite_none_left_eq_some.mp hcomplete
      rw [hfailed] at heq₁
      cases heq₁
      exact .disconnected hs h hconnects
    · have hall : StackStep c t s .outside s₁ p₁ := by
        refine completeStep_step hs h (fun i hi => ?_) hcomplete
        exact Bool.not_eq_false _ |>.mp fun hfalse => hfailed ⟨i, hi, hfalse⟩
      exact hall.leave
  rcases hends with ⟨-, rfl, rfl⟩ | ⟨htimeout, howner, rfl, rfl⟩ | ⟨-, rfl, rfl⟩
  · exact hdropped
  · refine completeStep_step hs h (fun i hi => ?_) hcomplete
    subst hi
    obtain ⟨hconnects, -⟩ := Option.ite_none_left_eq_some.mp hcomplete
    cases errCode with
    | none => rfl
    | some code =>
        have hcode : code ≠ waitTimeout := fun heq => htimeout (congrArg some heq)
        exact absurd howner (hcond i code rfl rfl hcode (Nat.pos_of_ne_zero hconnects))
  · exact hdropped.abort

/-- What a step inside a member does keeps the invariant. -/
theorem tcpNext_step (hs : StackShared c s) (h : StackEach c t s p)
    (hstep : tcpNext c t s r p = some (s', p')) : StackStep c t s p s' p' := by
  cases p with
  | outside => cases hstep
  | clientStart i => exact clientStartStep_step hs h hstep
  | startAccept q => exact startAcceptStep_step hs h hstep
  | registerAccept e caller q => exact registerAcceptStep_step hs h hstep
  | processAccept e q => exact processAcceptStep_step hs h hstep
  | connect i caller q => exact registerConnectStep_step hs h hstep
  | session i caller q => exact sessionStep_step hs h hstep

/-- What a step that enters a member does keeps the invariant. -/
theorem tcpEnter_step {k : TcpChoice β} (hs : StackShared c s) (h : StackEach c t s .outside)
    (hcond : ∀ i numOfBytes code, k = .dequeue (.connectEx i) numOfBytes (some code) →
      code ≠ waitTimeout → 0 < s.connects i → s.connectOwner i ≠ true)
    (hstep : tcpEnter c t s k = some (s', p')) : StackStep c t s .outside s' p' := by
  cases k with
  | start =>
      cases hstep
      split
      · split
        · rename_i hserver
          exact .move hs h rfl hserver fun _ he => by cases he
        · exact .move hs h rfl trivial fun _ he => by cases he
      · exact .move hs h rfl trivial fun _ he => he
  | connect i =>
      obtain ⟨-, heq⟩ := Option.ite_none_right_eq_some.mp hstep
      cases heq
      exact .move hs h rfl (fun hpast => hpast.elim) fun _ he => by cases he
  | send i sendBuffer =>
      obtain ⟨-, heq⟩ := Option.ite_none_right_eq_some.mp hstep
      cases heq
      exact .move hs h rfl trivial fun _ he => by cases he
  | disconnect i =>
      obtain ⟨-, heq⟩ := Option.ite_none_right_eq_some.mp hstep
      cases heq
      exact .move hs h rfl trivial fun _ he => by cases he
  | dequeue op numOfBytes errCode =>
      refine dispatchStep_step hs h (fun i code hop herr => ?_) hstep
      subst hop herr
      exact hcond i numOfBytes code rfl
  | next r => cases hstep

end steps

/-! ## Runs -/

section runs

variable {c : ServiceConfig}

omit [DecidableEq τ] in
/-- Nothing was made yet. -/
theorem StackShared.init (c : ServiceConfig) :
    StackShared c (tcpInit τ β).shared where
  connected _ hi := absurd hi Bool.false_ne_true
  inSessions _ hi := absurd hi Bool.false_ne_true
  accepting _ _ hi := by cases hi
  acceptSession _ _ hi := by cases hi
  connects _ _ := rfl
  socketConnected _ _ hi := absurd hi Bool.false_ne_true

/-- The invariants give the law. -/
theorem StackInv.law {s : Processes τ (TcpShared τ β) (TcpPc β)}
    (h : StackInv c s) : ConnectionLaw s.shared := by
  have hfollows : ∀ t a b, Follows a b → s.shared.log.count (t, b) ≤ s.shared.log.count (t, a) :=
    fun t a b hab => (Nat.le_add_right _ _).trans ((h.each t).counts a b hab)
  have hstored := fun t i => hfollows t _ _ (.stored i)
  have hadded := fun t i => (hfollows t _ _ (.added i)).trans (hstored t i)
  have honConnected := fun t i => (hfollows t _ _ (.onConnected i)).trans (hadded t i)
  exact ⟨h.shared.connected, h.shared.inSessions, hstored, hadded, honConnected⟩

/-- The invariants hold in every run that dispatches no failed `ConnectEx`. -/
theorem stackInv_run (c : ServiceConfig) (events : List (τ × TcpChoice β))
    (hdispatch : ∀ e ∈ (tcpThreads τ β c).trace (tcpInit τ β) events,
      ¬ DispatchesFailedConnect e) :
    StackInv c ((tcpThreads τ β c).exec (tcpInit τ β) events) := by
  refine (tcpThreads τ β c).guarded_invariant (C := fun e => ¬ DispatchesFailedConnect e) ?_ ?_
    events hdispatch
  · exact ⟨.init c, fun t => ⟨fun a b _ => le_rfl, trivial, fun _ he => by cases he⟩,
      fun t u _ e he => by cases he⟩
  · intro s e h hcond
    refine interleave_step h e fun s' p' o hact => ?_
    obtain ⟨hcrashed, hstep⟩ := tcpAct_eq_some hact
    rcases hstep with ⟨hp, henter⟩ | ⟨r, -, hnext⟩
    · have hself := h.each e.1
      refine h.update ?_
      rw [hp] at hself ⊢
      refine tcpEnter_step h.shared hself (fun i numOfBytes code hk hcode hconnects howner => ?_)
        henter
      exact hcond ⟨hp, hcrashed, i, numOfBytes, code, hk, hcode, hconnects, howner⟩
    · exact h.update (tcpNext_step h.shared (h.each e.1) hnext)

/-- **Connected only after a success.** In every run in which no step dispatches the failed
completion of a `ConnectEx`, whatever other operations succeed or fail, `_connected` becomes `true`,
`AddSession` inserts the session and `OnConnected` runs only for a session whose `ConnectEx` or
`AcceptEx` was successful. -/
theorem connection_law (c : ServiceConfig) (events : List (τ × TcpChoice β))
    (hdispatch : ∀ e ∈ (tcpThreads τ β c).trace (tcpInit τ β) events,
      ¬ DispatchesFailedConnect e) :
    ConnectionLaw ((tcpThreads τ β c).exec (tcpInit τ β) events).shared :=
  (stackInv_run c events hdispatch).law

/-- A server whose first `AcceptEx` fails and whose second one is successful. -/
def acceptedRun : List (Unit × TcpChoice ℕ) :=
  [.start, .next .ok, .next .ok, .next .ok, .next (.failed wsaIoPending), .next .ok,
    .dequeue (.acceptEx 0) 0 (some wsaEConnReset), .next .ok, .next .ok, .next .ok,
    .next (.failed wsaIoPending),
    .dequeue (.acceptEx 0) 0 none, .next .ok, .next .ok, .next .ok,
    .next .ok, .next .ok, .next .ok].map fun k => ((), k)

/-- The law in a run in which one `AcceptEx` fails and the next one is successful. -/
theorem connection_law_acceptedRun :
    ConnectionLaw ((tcpThreads Unit ℕ ⟨.server, 1, true⟩).exec (tcpInit Unit ℕ)
        acceptedRun).shared ∧
      (((tcpThreads Unit ℕ ⟨.server, 1, true⟩).exec (tcpInit Unit ℕ)
        acceptedRun).shared.sessions 0).connected = false ∧
      ((tcpThreads Unit ℕ ⟨.server, 1, true⟩).exec (tcpInit Unit ℕ) acceptedRun).shared.log =
        [.completed 1, .stored 1, .added 1, .onConnected 1].map fun event => ((), event) := by
  have hinputs : ∀ k ∈ acceptedRun, ∀ session numOfBytes errCode,
      k.2 ≠ .dequeue (.connectEx session) numOfBytes (some errCode) := by
    simp [acceptedRun]
  refine ⟨connection_law _ _ fun e he hdispatch => ?_, by decide +kernel, by decide +kernel⟩
  obtain ⟨-, -, session, numOfBytes, errCode, hinput, -⟩ := hdispatch
  obtain ⟨fs, k, gs, hes, rfl⟩ := Transducer.mem_trace_iff _ |>.mp he
  refine hinputs k ?_ session numOfBytes errCode hinput
  rw [hes]
  exact List.mem_append_right _ List.mem_cons_self

/-- A client whose `ConnectEx` fails with `WSAECONNREFUSED`. -/
def refusedRun : List (Unit × TcpChoice ℕ) :=
  [.start, .next .ok, .next .ok, .next .ok, .next .ok, .next .ok, .next (.failed wsaIoPending),
    .next .ok, .dequeue (.connectEx 0) 0 (some 10061), .next .ok, .next .ok, .next .ok].map
    fun k => ((), k)

/-- The refused session is connected, in `_sessions`, and `OnConnected` has run for it. -/
theorem not_connectionLaw_refusedRun :
    ¬ ConnectionLaw ((tcpThreads Unit ℕ ⟨.client, 1, true⟩).exec (tcpInit Unit ℕ)
      refusedRun).shared := by
  intro hlaw
  have hlog : ((tcpThreads Unit ℕ ⟨.client, 1, true⟩).exec (tcpInit Unit ℕ)
      refusedRun).shared.log = [((), .stored 0), ((), .added 0), ((), .onConnected 0)] := by
    decide +kernel
  obtain ⟨t, hmem⟩ := hlaw.connected 0 (by decide +kernel)
  rw [hlog] at hmem
  simp at hmem

end runs

end CowboyPoker.ServerCore
