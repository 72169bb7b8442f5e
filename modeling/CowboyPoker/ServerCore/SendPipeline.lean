import CowboyPoker.ServerCore.SessionThreads

/-!
# The send pipeline of a session

`_sendRegistered` is a token: the thread that sets it may use `_sendEvent`, hands it to the kernel with
`WSASend`, and gets it back from the completion.

* `tokenStage` — whether a thread at a position has the token, and what it has done with it.
* `PipelineStep`, `pipelineStep` — the inversion of a step: what it can do to the queue, the event and
  the token.
* `PipelineInv`, `pipelineInv_run` — the invariant: whoever has the token is alone, and what it has
  taken off the queue is in the event.
-/

namespace CowboyPoker.ServerCore

open CowboyPoker.Found

variable {τ β : Type}

/-! ## The token -/

/-- What the owner of the token has done. -/
inductive TokenStage (β : Type)
  /-- The event is empty. -/
  | idle
  /-- The event has what was taken off the queue and not yet passed to `WSASend`. -/
  | draining
  /-- The same, and the list that will be passed is copied. -/
  | posting (wsaBufs : List β)
  /-- What is in the event was passed to `WSASend`. -/
  | spent

/-- The stage of a thread that has the token. -/
def tokenStage : SessionPc β → Option (TokenStage β)
  | .send (.unlock true) => some .idle
  | .registerSend _ .check => some .idle
  | .registerSend _ .init => some .idle
  | .registerSend _ .lock => some .idle
  | .registerSend _ .drain => some .draining
  | .registerSend _ .unlock => some .draining
  | .registerSend _ .fill => some .draining
  | .registerSend _ (.wsaSend wsaBufs) => some (.posting wsaBufs)
  | .registerSend _ (.handleError _) => some .spent
  | .registerSend _ .clearOwner => some .spent
  | .registerSend _ .clearBuffers => some .spent
  | .registerSend _ .clearRegistered => some .idle
  | .processSend (.clearOwner _) => some .spent
  | .processSend (.clearBuffers _) => some .spent
  | .processSend (.check _) => some .idle
  | .processSend .onSend => some .idle
  | .processSend .lock => some .idle
  | .processSend .checkQueue => some .idle
  | .processSend .clearRegistered => some .idle
  | .disconnect (.registerSend _) _ => some .spent
  | .disconnect .processSend .exchange => some .idle
  | _ => none

/-- Two states with the same pipeline. -/
structure SamePipeline (s s' : SessionShared τ β) : Prop where
  sendQueue : s'.sendQueue = s.sendQueue
  sendRegistered : s'.sendRegistered = s.sendRegistered
  sendBuffers : s'.sendBuffers = s.sendBuffers
  sends : s'.sends = s.sends
  pushed : s'.pushed = s.pushed
  handed : s'.handed = s.handed

/-- The pipeline is the same where nothing happens. -/
theorem SamePipeline.refl (s : SessionShared τ β) : SamePipeline s s := ⟨rfl, rfl, rfl, rfl, rfl, rfl⟩

/-- What a step from `s` and `p` to `s'` and `p'` can have done to the pipeline. -/
inductive PipelineStep (s : SessionShared τ β) (p : SessionPc β) :
    SessionShared τ β → SessionPc β → Prop
  /-- Nothing. -/
  | quiet {s' p'} (hsame : SamePipeline s s') (hstage : tokenStage p' = tokenStage p) :
      PipelineStep s p s' p'
  /-- The token was given up for good: the session is not connected any more. -/
  | dropped {s' p'} (hsame : SamePipeline s s') (hstage : tokenStage p' = none)
      (hconnected : s'.connected = false) : PipelineStep s p s' p'
  /-- A buffer was pushed on the queue. -/
  | pushed {p'} (sendBuffer : β) (hp : p = .send (.push sendBuffer))
      (hp' : tokenStage p' = none) : PipelineStep s p { s with
        sendQueue := s.sendQueue ++ [sendBuffer]
        pushed := s.pushed ++ [sendBuffer] } p'
  /-- The free token was taken. -/
  | taken {p'} (hfree : s.sendRegistered = false) (hp : p = .send .exchange)
      (hp' : tokenStage p' = some .idle) : PipelineStep s p { s with sendRegistered := true } p'
  /-- The loop that empties the queue began. -/
  | began {s' p'} (hsame : SamePipeline s s') (hp : tokenStage p = some .idle)
      (hp' : tokenStage p' = some .draining) : PipelineStep s p s' p'
  /-- A buffer moved from the queue to the event. -/
  | drained {p'} (sendBuffer : β) (sendQueue : List β) (h : s.sendQueue = sendBuffer :: sendQueue)
      (hp : tokenStage p = some .draining) (hp' : tokenStage p' = some .draining) :
      PipelineStep s p { s with
        sendQueue
        sendBuffers := s.sendBuffers ++ [sendBuffer] } p'
  /-- The list for `WSASend` was copied. -/
  | filled {p'} (hp : tokenStage p = some .draining)
      (hp' : tokenStage p' = some (.posting s.sendBuffers)) : PipelineStep s p s p'
  /-- `WSASend` took the list. -/
  | posted {p'} (wsaBufs : List β) (hp : tokenStage p = some (.posting wsaBufs))
      (hp' : tokenStage p' = none) :
      PipelineStep s p { s with
        handed := s.handed ++ [wsaBufs]
        sends := s.sends ++ [wsaBufs] } p'
  /-- `WSASend` failed at once. -/
  | refused {p'} (wsaBufs : List β) (hp : tokenStage p = some (.posting wsaBufs))
      (hp' : tokenStage p' = some .spent) :
      PipelineStep s p { s with handed := s.handed ++ [wsaBufs] } p'
  /-- A completion was dequeued. -/
  | completed {p'} (wsaBufs : List β) (sends : List (List β)) (h : s.sends = wsaBufs :: sends)
      (hp : tokenStage p = none) (hp' : tokenStage p' = some .spent) :
      PipelineStep s p { s with sends } p'
  /-- The event was emptied. -/
  | cleared {p'} (hp : tokenStage p = some .spent) (hp' : tokenStage p' = some .idle) :
      PipelineStep s p { s with sendBuffers := [] } p'
  /-- The token was freed. -/
  | released {p'} (hpos : (∃ nested, p = .registerSend nested .clearRegistered) ∨
        p = .processSend .clearRegistered)
      (hp : tokenStage p = some .idle) (hp' : tokenStage p' = none) :
      PipelineStep s p { s with sendRegistered := false } p'

section inversion

variable {t : τ} {s s' : SessionShared τ β} {p' : SessionPc β} {r : CallResult}

/-- Where `RegisterSend` returns to, nobody has the token. -/
theorem tokenStage_afterRegisterSend (nested : Bool) :
    tokenStage (afterRegisterSend nested : SessionPc β) = none := by
  cases nested <;> rfl

/-- Outside of the send path nobody has the token. -/
theorem tokenStage_of_outlying {p : SessionPc β} (h : p.Outlying) : tokenStage p = none := by
  cases p with
  | send p => exact h.elim
  | registerSend nested p => exact h.elim
  | processSend p => exact h.elim
  | disconnect caller p =>
      have hcaller : caller = .leave ∨ caller = .registerRecv := h
      rcases hcaller with rfl | rfl <;> cases p <;> rfl
  | _ => rfl

/-- A step outside of the send path. -/
theorem SendPathKept.pipelineStep {p : SessionPc β} (h : SendPathKept s s' ∧ p'.Outlying)
    (hp : p.Outlying) : PipelineStep s p s' p' := by
  obtain ⟨hkept, hp'⟩ := h
  refine .quiet ⟨hkept.sendQueue, hkept.sendRegistered, hkept.sendBuffers, hkept.sends,
    hkept.pushed, hkept.handed⟩ ?_
  rw [tokenStage_of_outlying hp, tokenStage_of_outlying hp']

/-- What a step that enters a member does to the pipeline. -/
theorem pipelineStep_enter {k : SessionChoice β} (h : enterStep s k = some (s', p')) :
    PipelineStep s .outside s' p' := by
  cases k with
  | send sendBuffer =>
      cases h
      exact .quiet (.refl s) rfl
  | sent numOfBytes =>
      simp only [enterStep] at h
      split at h
      · cases h
      · cases h
        exact .completed _ _ ‹_› rfl rfl
  | _ => exact SendPathKept.pipelineStep (enterStep_outlying (by simp) (by simp) h) trivial

/-- Only a `Disconnect` that `ProcessSend` has called gives up a token. -/
theorem pipelineStep_disconnect {caller : DisconnectCaller} {p : DisconnectPc}
    (h : disconnectStep s caller r p = some (s', p')) :
    PipelineStep s (.disconnect caller p) s' p' := by
  have hreturn : ∀ q, q ≠ DisconnectPc.exchange →
      tokenStage (caller.return : SessionPc β) = tokenStage (.disconnect caller q) := by
    intro q hq
    cases caller <;> cases q <;> first | rfl | exact absurd rfl hq
  cases p with
  | exchange =>
      cases h
      cases hconnected : s.connected with
      | false =>
          cases caller with
          | processSend => exact .dropped ⟨rfl, rfl, rfl, rfl, rfl, rfl⟩ rfl rfl
          | _ => exact .quiet ⟨rfl, rfl, rfl, rfl, rfl, rfl⟩ rfl
      | true =>
          cases caller with
          | processSend => exact .dropped ⟨rfl, rfl, rfl, rfl, rfl, rfl⟩ rfl rfl
          | _ => exact .quiet ⟨rfl, rfl, rfl, rfl, rfl, rfl⟩ rfl
  | init =>
      cases h
      refine .quiet ⟨rfl, rfl, rfl, rfl, rfl, rfl⟩ ?_
      cases caller <;> rfl
  | disconnectEx =>
      simp only [disconnectStep] at h
      split at h
      · cases h
        exact .quiet ⟨rfl, rfl, rfl, rfl, rfl, rfl⟩ (hreturn _ DisconnectPc.noConfusion)
      · cases h
        refine .quiet (.refl s) ?_
        cases caller <;> rfl
  | clearOwner =>
      cases h
      exact .quiet ⟨rfl, rfl, rfl, rfl, rfl, rfl⟩ (hreturn _ DisconnectPc.noConfusion)

variable [DecidableEq τ]

/-- What `Send` does to the pipeline. -/
theorem pipelineStep_send {p : SendPc β} (h : sendStep t s p = some (s', p')) :
    PipelineStep s (.send p) s' p' := by
  cases p with
  | check sendBuffer =>
      cases h
      refine .quiet (.refl s) ?_
      split <;> rfl
  | lock sendBuffer =>
      obtain ⟨lock, -, h⟩ := Option.map_eq_some_iff.mp h
      cases h
      exact .quiet ⟨rfl, rfl, rfl, rfl, rfl, rfl⟩ rfl
  | push sendBuffer =>
      cases h
      exact .pushed sendBuffer rfl rfl
  | exchange =>
      cases h
      cases hfree : s.sendRegistered with
      | false => exact .taken hfree rfl rfl
      | true => exact .quiet ⟨rfl, hfree.symm, rfl, rfl, rfl, rfl⟩ rfl
  | unlock registerSend =>
      cases h
      cases registerSend with
      | false => exact .quiet ⟨rfl, rfl, rfl, rfl, rfl, rfl⟩ rfl
      | true => exact .quiet ⟨rfl, rfl, rfl, rfl, rfl, rfl⟩ rfl

/-- What `RegisterSend` does to the pipeline. -/
theorem pipelineStep_registerSend {nested : Bool} {p : RegisterSendPc β}
    (h : registerSendStep t s nested r p = some (s', p')) :
    PipelineStep s (.registerSend nested p) s' p' := by
  cases p with
  | check =>
      cases h
      cases hconnected : s.connected with
      | false => exact .dropped (.refl s) (tokenStage_afterRegisterSend nested) hconnected
      | true => exact .quiet (.refl s) rfl
  | init =>
      cases h
      exact .quiet ⟨rfl, rfl, rfl, rfl, rfl, rfl⟩ rfl
  | lock =>
      obtain ⟨lock, -, h⟩ := Option.map_eq_some_iff.mp h
      cases h
      exact .began ⟨rfl, rfl, rfl, rfl, rfl, rfl⟩ rfl rfl
  | drain =>
      simp only [registerSendStep] at h
      split at h
      · cases h
        exact .quiet (.refl s) rfl
      · cases h
        exact .drained _ _ ‹_› rfl rfl
  | unlock =>
      cases h
      exact .quiet ⟨rfl, rfl, rfl, rfl, rfl, rfl⟩ rfl
  | fill =>
      cases h
      exact .filled rfl rfl
  | wsaSend wsaBufs =>
      simp only [registerSendStep] at h
      split at h
      · cases h
        exact .posted wsaBufs rfl (tokenStage_afterRegisterSend nested)
      · cases h
        exact .refused wsaBufs rfl rfl
  | handleError errorCode =>
      cases h
      refine .quiet (.refl s) ?_
      unfold handleError
      split <;> rfl
  | clearOwner =>
      cases h
      exact .quiet ⟨rfl, rfl, rfl, rfl, rfl, rfl⟩ rfl
  | clearBuffers =>
      cases h
      exact .cleared rfl rfl
  | clearRegistered =>
      cases h
      exact .released (.inl ⟨nested, rfl⟩) rfl (tokenStage_afterRegisterSend nested)

/-- What `ProcessSend` does to the pipeline. -/
theorem pipelineStep_processSend {p : ProcessSendPc}
    (h : processSendStep t s p = some (s', p')) : PipelineStep s (.processSend p) s' p' := by
  cases p with
  | clearOwner numOfBytes =>
      cases h
      exact .quiet ⟨rfl, rfl, rfl, rfl, rfl, rfl⟩ rfl
  | clearBuffers numOfBytes =>
      cases h
      exact .cleared rfl rfl
  | check numOfBytes =>
      cases h
      refine .quiet (.refl s) ?_
      split <;> rfl
  | onSend =>
      cases h
      exact .quiet (.refl s) rfl
  | lock =>
      obtain ⟨lock, -, h⟩ := Option.map_eq_some_iff.mp h
      cases h
      exact .quiet ⟨rfl, rfl, rfl, rfl, rfl, rfl⟩ rfl
  | checkQueue =>
      cases h
      refine .quiet (.refl s) ?_
      split <;> rfl
  | clearRegistered =>
      cases h
      exact .released (.inr rfl) rfl rfl
  | unlock =>
      cases h
      exact .quiet ⟨rfl, rfl, rfl, rfl, rfl, rfl⟩ rfl

/-- **The inversion of a step.** -/
theorem pipelineStep {p : SessionPc β} {k : SessionChoice β} {o : Unit}
    (h : sessionAct t s p k = some (s', p', o)) : PipelineStep s p s' p' := by
  rcases sessionAct_eq_some h with ⟨rfl, henter⟩ | ⟨r, -, hnext⟩
  · exact pipelineStep_enter henter
  · cases p with
    | send p => exact pipelineStep_send hnext
    | registerSend nested p => exact pipelineStep_registerSend hnext
    | processSend p => exact pipelineStep_processSend hnext
    | disconnect caller p => exact pipelineStep_disconnect hnext
    | _ => exact SendPathKept.pipelineStep (nextStep_outlying hnext trivial) trivial

end inversion

/-! ## The invariant -/

/-- The token is taken and no send outstanding: `drained`, then the queue, is what was pushed and not
yet passed to `WSASend`. -/
structure Token (s : SessionShared τ β) (drained : List β) : Prop where
  registered : s.sendRegistered = true
  sends : s.sends = []
  pushed : s.handed.flatten ++ drained ++ s.sendQueue = s.pushed

/-- What the owner of the token knows. -/
def StageInv (s : SessionShared τ β) : TokenStage β → Prop
  | .idle => Token s [] ∧ s.sendBuffers = []
  | .draining => Token s s.sendBuffers
  | .posting wsaBufs => Token s s.sendBuffers ∧ s.sendBuffers = wsaBufs
  | .spent => Token s []

/-- What everybody knows. -/
structure PipelineShared (s : SessionShared τ β) : Prop where
  /-- Nothing was skipped, repeated or reordered. -/
  handed : s.handed.flatten <+: s.pushed
  /-- While the token is free, the event is free. -/
  free : s.sendRegistered = false →
    s.sends = [] ∧ s.sendBuffers = [] ∧ s.handed.flatten ++ s.sendQueue = s.pushed
  /-- An outstanding send has the token, and its buffers are in the event. -/
  outstanding : s.sends = [] ∨ (s.sendRegistered = true ∧ s.sends = [s.sendBuffers] ∧
    s.handed.flatten ++ s.sendQueue = s.pushed)

/-- The invariant: whoever has the token knows what is in the event, and nobody else has it. -/
abbrev PipelineInv : Processes τ (SessionShared τ β) (SessionPc β) → Prop :=
  LocalInv PipelineShared (fun _ s p => ∀ stage ∈ tokenStage p, StageInv s stage)
    (fun p q => tokenStage p = none ∨ tokenStage q = none)

section invariant

variable {s s' : SessionShared τ β} {drained : List β}

/-- The token stays in use in a state with the same pipeline. -/
theorem Token.of_same (h : Token s drained) (hsame : SamePipeline s s') : Token s' drained where
  registered := hsame.sendRegistered ▸ h.registered
  sends := hsame.sends ▸ h.sends
  pushed := by rw [hsame.handed, hsame.sendQueue, hsame.pushed, h.pushed]

/-- What the owner of the token knows holds in a state with the same pipeline. -/
theorem StageInv.of_same {stage : TokenStage β} (h : StageInv s stage)
    (hsame : SamePipeline s s') : StageInv s' stage := by
  cases stage with
  | idle => exact ⟨h.1.of_same hsame, hsame.sendBuffers ▸ h.2⟩
  | draining =>
      have htoken : Token s' s.sendBuffers := Token.of_same h hsame
      rwa [← hsame.sendBuffers] at htoken
  | posting wsaBufs =>
      have htoken : Token s' s.sendBuffers := h.1.of_same hsame
      rw [← hsame.sendBuffers] at htoken
      exact ⟨htoken, hsame.sendBuffers.trans h.2⟩
  | spent => exact Token.of_same h hsame

/-- What everybody knows holds in a state with the same pipeline. -/
theorem PipelineShared.of_same (h : PipelineShared s) (hsame : SamePipeline s s') :
    PipelineShared s' where
  handed := hsame.handed.symm ▸ hsame.pushed.symm ▸ h.handed
  free hfree := by
    rw [hsame.sends, hsame.sendBuffers, hsame.handed, hsame.sendQueue, hsame.pushed]
    exact h.free (hsame.sendRegistered ▸ hfree)
  outstanding := by
    rw [hsame.sends, hsame.sendRegistered, hsame.sendBuffers, hsame.handed, hsame.sendQueue,
      hsame.pushed]
    exact h.outstanding

/-- The token in use makes the rest of what everybody knows true. -/
theorem Token.shared (h : Token s drained) : PipelineShared s where
  handed := ⟨drained ++ s.sendQueue, by rw [← List.append_assoc, h.pushed]⟩
  free hfree := by
    rw [h.registered] at hfree
    cases hfree
  outstanding := .inl h.sends

/-- Every stage is one with the token in use. -/
theorem StageInv.token {stage : TokenStage β} (h : StageInv s stage) : ∃ drained, Token s drained := by
  cases stage with
  | idle => exact ⟨_, h.1⟩
  | draining => exact ⟨_, h⟩
  | posting wsaBufs => exact ⟨_, h.1⟩
  | spent => exact ⟨_, h⟩

/-- A push keeps what the owner of the token knows. -/
theorem StageInv.push {stage : TokenStage β} (h : StageInv s stage) (sendBuffer : β) :
    StageInv { s with
      sendQueue := s.sendQueue ++ [sendBuffer]
      pushed := s.pushed ++ [sendBuffer] } stage := by
  have hpush : ∀ {drained : List β}, Token s drained → Token { s with
      sendQueue := s.sendQueue ++ [sendBuffer]
      pushed := s.pushed ++ [sendBuffer] } drained := fun htoken =>
    ⟨htoken.registered, htoken.sends, by
      rw [← htoken.pushed]
      simp only [List.append_assoc]⟩
  cases stage with
  | idle => exact ⟨hpush h.1, h.2⟩
  | draining => exact hpush h
  | posting wsaBufs => exact ⟨hpush h.1, h.2⟩
  | spent => exact hpush h

/-- A push keeps what everybody knows. -/
theorem PipelineShared.push (h : PipelineShared s) (sendBuffer : β) : PipelineShared { s with
    sendQueue := s.sendQueue ++ [sendBuffer]
    pushed := s.pushed ++ [sendBuffer] } where
  handed := h.handed.trans (List.prefix_append _ _)
  free hfree := by
    obtain ⟨hsends, hbuffers, hpushed⟩ := h.free hfree
    exact ⟨hsends, hbuffers, by rw [← List.append_assoc, hpushed]⟩
  outstanding := by
    rcases h.outstanding with hsends | ⟨hregistered, hsends, hpushed⟩
    · exact .inl hsends
    · exact .inr ⟨hregistered, hsends, by rw [← List.append_assoc, hpushed]⟩

end invariant

section step

variable {s : Processes τ (SessionShared τ β) (SessionPc β)} {t : τ} {s' : SessionShared τ β}
  {p' : SessionPc β}

/-- A thread that has the token is alone with it. -/
theorem PipelineInv.alone (h : PipelineInv s) {stage : TokenStage β}
    (hp : tokenStage (s.pc t) = some stage) {u : τ} (hu : u ≠ t) : tokenStage (s.pc u) = none := by
  rcases h.pairs u t hu with hnone | hnone
  · exact hnone
  · rw [hp] at hnone
    cases hnone

/-- Nobody has a token that the shared state rules out. -/
theorem PipelineInv.nobody (h : PipelineInv s) (hnone : ∀ buffers, ¬ Token s.shared buffers) (u : τ) :
    tokenStage (s.pc u) = none := by
  refine Option.eq_none_iff_forall_not_mem.mpr fun stage hu => ?_
  obtain ⟨buffers, htaken⟩ := (h.each u stage hu).token
  exact hnone buffers htaken

variable [DecidableEq τ]

/-- A step of the thread with the token, or of one that gets it. -/
theorem PipelineInv.update_owner (h : PipelineInv s) (hshared : PipelineShared s')
    (hself : ∀ stage ∈ tokenStage p', StageInv s' stage)
    (hothers : ∀ u, u ≠ t → tokenStage (s.pc u) = none) :
    PipelineInv ⟨s', Function.update s.pc t p'⟩ := by
  refine LocalInv.update h hshared hself fun u hu => ?_
  refine ⟨fun stage hstage => ?_, .inr (hothers u hu), .inl (hothers u hu)⟩
  rw [hothers u hu] at hstage
  cases hstage

/-- A step of a thread without the token that does not get it. -/
theorem PipelineInv.update_other (h : PipelineInv s) (hshared : PipelineShared s')
    (hp' : tokenStage p' = none)
    (hothers : ∀ stage, StageInv s.shared stage → StageInv s' stage) :
    PipelineInv ⟨s', Function.update s.pc t p'⟩ := by
  refine LocalInv.update h hshared (fun stage hstage => ?_) fun u _ => ?_
  · rw [hp'] at hstage
    cases hstage
  · exact ⟨fun stage hstage => hothers stage (h.each u stage hstage), .inl hp', .inr hp'⟩

/-- **The step lemma.** -/
theorem PipelineInv.update (h : PipelineInv s) (hstep : PipelineStep s.shared (s.pc t) s' p') :
    PipelineInv ⟨s', Function.update s.pc t p'⟩ := by
  -- the stage of the thread that moves, and what it gets once its next stage is known
  have hstage : ∀ {stage}, tokenStage (s.pc t) = some stage → StageInv s.shared stage :=
    fun hp => h.each t _ hp
  have hself : ∀ {stage}, tokenStage p' = some stage → StageInv s' stage →
      ∀ stage ∈ tokenStage p', StageInv s' stage := by
    intro stage hp' hinv stage' hstage'
    rw [hp', Option.mem_some_iff] at hstage'
    exact hstage' ▸ hinv
  cases hstep with
  | quiet hsame hstage =>
      refine LocalInv.update h (h.shared.of_same hsame) (fun stage hp' => ?_) fun u hu => ?_
      · exact (h.each t stage (hstage ▸ hp')).of_same hsame
      · refine ⟨fun stage hu => (h.each u stage hu).of_same hsame, ?_, ?_⟩
        · exact hstage ▸ h.pairs t u (Ne.symm hu)
        · exact hstage ▸ h.pairs u t hu
  | dropped hsame hp' hconnected =>
      exact h.update_other (h.shared.of_same hsame) hp' fun _ hinv => hinv.of_same hsame
  | pushed sendBuffer hp hp' =>
      exact h.update_other (h.shared.push sendBuffer) hp' fun _ hinv => hinv.push sendBuffer
  | taken hfree hp hp' =>
      obtain ⟨hsends, hbuffers, hpushed⟩ := h.shared.free hfree
      have htoken : Token { s.shared with sendRegistered := true } [] :=
        ⟨rfl, hsends, by simpa only [List.append_nil] using hpushed⟩
      refine h.update_owner htoken.shared (hself hp' ⟨htoken, hbuffers⟩) fun u _ => h.nobody ?_ u
      intro buffers htaken
      exact absurd htaken.registered (by rw [hfree]; exact Bool.noConfusion)
  | began hsame hp hp' =>
      obtain ⟨htoken, hbuffers⟩ := hstage hp
      have hdraining : StageInv s.shared .draining := by
        rw [← hbuffers] at htoken
        exact htoken
      exact h.update_owner (h.shared.of_same hsame) (hself hp' (hdraining.of_same hsame))
        fun u hu => h.alone hp hu
  | drained sendBuffer sendQueue hqueue hp hp' =>
      have htoken : Token s.shared s.shared.sendBuffers := hstage hp
      have hnext : Token { s.shared with
          sendQueue
          sendBuffers := s.shared.sendBuffers ++ [sendBuffer] }
          (s.shared.sendBuffers ++ [sendBuffer]) := by
        refine ⟨htoken.registered, htoken.sends, ?_⟩
        rw [← htoken.pushed, hqueue]
        simp only [List.append_assoc, List.singleton_append]
      exact h.update_owner hnext.shared (hself hp' hnext) fun u hu => h.alone hp hu
  | filled hp hp' =>
      have htoken : Token s.shared s.shared.sendBuffers := hstage hp
      exact h.update_owner h.shared (hself hp' ⟨htoken, rfl⟩) fun u hu => h.alone hp hu
  | posted wsaBufs hp hp' =>
      obtain ⟨htoken, hbuffers⟩ := hstage hp
      have hpushed : (s.shared.handed ++ [wsaBufs]).flatten ++ s.shared.sendQueue =
          s.shared.pushed := by
        rw [List.flatten_concat, ← hbuffers, htoken.pushed]
      refine h.update_owner ⟨⟨_, hpushed⟩, fun hfree => ?_, .inr ⟨htoken.registered, ?_, hpushed⟩⟩
        (fun stage hmem => ?_) fun u hu => h.alone hp hu
      · exact absurd htoken.registered (by rw [hfree]; exact Bool.noConfusion)
      · simp only [htoken.sends, hbuffers, List.nil_append]
      · rw [hp'] at hmem
        cases hmem
  | refused wsaBufs hp hp' =>
      obtain ⟨htoken, hbuffers⟩ := hstage hp
      have hnext : Token { s.shared with handed := s.shared.handed ++ [wsaBufs] } [] := by
        refine ⟨htoken.registered, htoken.sends, ?_⟩
        rw [List.append_nil, List.flatten_concat, ← hbuffers, htoken.pushed]
      exact h.update_owner hnext.shared (hself hp' hnext) fun u hu => h.alone hp hu
  | completed wsaBufs sends hsends hp hp' =>
      rcases h.shared.outstanding with hnone | ⟨hregistered, hone, hpushed⟩
      · rw [hsends] at hnone
        cases hnone
      · have hrest : sends = [] := by
          rw [hsends] at hone
          exact (List.cons.inj hone).2
        have hnext : Token { s.shared with sends } [] :=
          ⟨hregistered, hrest, by simpa only [List.append_nil] using hpushed⟩
        refine h.update_owner hnext.shared (hself hp' hnext) fun u _ => h.nobody ?_ u
        intro buffers htaken
        exact absurd htaken.sends (by rw [hsends]; exact List.cons_ne_nil _ _)
  | cleared hp hp' =>
      have htoken : Token s.shared [] := hstage hp
      have hnext : Token { s.shared with sendBuffers := [] } [] :=
        ⟨htoken.registered, htoken.sends, htoken.pushed⟩
      exact h.update_owner hnext.shared (hself hp' ⟨hnext, rfl⟩) fun u hu => h.alone hp hu
  | released hpos hp hp' =>
      obtain ⟨htoken, hbuffers⟩ := hstage hp
      have hpushed : s.shared.handed.flatten ++ s.shared.sendQueue = s.shared.pushed := by
        simpa only [List.append_nil] using htoken.pushed
      refine h.update_owner ⟨⟨_, hpushed⟩, fun _ => ⟨htoken.sends, hbuffers, hpushed⟩,
        .inl htoken.sends⟩ (fun stage hmem => ?_) fun u hu => h.alone hp hu
      rw [hp'] at hmem
      cases hmem

end step

/-- The invariant holds in every run of the threads of a session. -/
theorem pipelineInv_run [DecidableEq τ] (events : List (τ × SessionChoice β)) :
    PipelineInv ((sessionThreads τ β).exec (sessionInit τ β) events) := by
  refine (sessionThreads τ β).exec_invariant ?_ ?_ events
  · refine ⟨⟨List.nil_prefix, fun _ => ⟨rfl, rfl, rfl⟩, .inl rfl⟩, fun t stage hstage => ?_,
      fun _ _ _ => .inl rfl⟩
    cases hstage
  · intro s e h
    exact interleave_step h e fun s' p' o hact => h.update (pipelineStep hact)

/-- At any moment of any run at most one `WSASend` is outstanding, its buffers are held by the event,
and what was ever passed to `WSASend` is a prefix of what was pushed on the queue. -/
theorem send_pipeline_safe [DecidableEq τ] (events : List (τ × SessionChoice β)) :
    let s := ((sessionThreads τ β).exec (sessionInit τ β) events).shared
    s.sends.length ≤ 1 ∧ (∀ wsaBufs ∈ s.sends, wsaBufs = s.sendBuffers) ∧
      s.handed.flatten <+: s.pushed := by
  have hinv := (pipelineInv_run events).shared
  intro s
  rcases hinv.outstanding with hnone | ⟨-, hone, -⟩
  · refine ⟨?_, ?_, hinv.handed⟩
    · rw [hnone]
      exact Nat.zero_le 1
    · intro wsaBufs hmem
      rw [hnone] at hmem
      cases hmem
  · refine ⟨?_, ?_, hinv.handed⟩
    · rw [hone]
      exact le_refl 1
    · intro wsaBufs hmem
      rw [hone] at hmem
      exact List.mem_singleton.mp hmem

end CowboyPoker.ServerCore
