import AuthorWatch.Proofs.Feed.Client
import Mathlib.Data.List.TakeWhile

/-! The client after it was told to stop. It does what it would have done anyway, up to the place
where it would wait or try again, and there it ends. So it makes no attempt after that; but a
frame is handed out to its end, and a connection that was being opened is used to its end. -/

namespace AuthorWatch

namespace Occurrence

/-- A wait or an attempt, with which the client goes on after a connection. -/
def isRenewal : Occurrence → Bool
  | waited _ | attempted _ => true
  | _ => false

/-- The events of a message that arrives. -/
def brought : Occurrence → List Event
  | received m => (Frame.ofMessage m).events
  | _ => []

theorem event?_notices (notices : List Notice) : (notices.map noticed).filterMap event? = [] := by
  rw [List.filterMap_map]
  exact List.filterMap_eq_nil_iff.mpr fun _ _ => rfl

theorem brought_notices (notices : List Notice) : (notices.map noticed).flatMap brought = [] := by
  rw [List.flatMap_map]
  exact List.flatMap_eq_nil_iff.mpr fun _ _ => rfl

theorem sent?_notices (notices : List Notice) : (notices.map noticed).filterMap sent? = [] := by
  rw [List.filterMap_map]
  exact List.filterMap_eq_nil_iff.mpr fun _ _ => rfl

theorem not_isRenewal_notices (notices : List Notice) :
    ∀ o ∈ notices.map noticed, o.isRenewal = false := by
  intro o ho
  obtain ⟨n, -, rfl⟩ := List.mem_map.mp ho
  rfl

end Occurrence

namespace Client

variable {c : Client} {settings : FeedSettings}

/-- The events of a frame that are not asked for yet. -/
def Phase.pending : Phase → List Event
  | delivering events => events
  | _ => []

/-- Whether there is no connection, and none is being opened. -/
def Phase.isIdle : Phase → Bool
  | waiting | stopped | interrupted => true
  | connecting | subscribing | listening | delivering _ => false

/-- A client that was told to stop. -/
def told (c : Client) : Client := { c with running := false }

theorem pending_withEvents (events : List Event) : (withEvents events).pending = events := by
  cases events <;> rfl

/-! ### Told and not told -/

/-- A connection that is lost: the client that was told ends there, the other one waits. -/
theorem told_lost (hc : c.running = true) (notice : Notice) :
    c.told.lost notice
        = ({ c.told with phase := .stopped }, [.noticed notice, .noticed .feedStopped])
      ∧ (c.lost notice).2.filter Occurrence.isOutward = [.waited c.settings.reconnectDelay] := by
  constructor
  · rfl
  · rw [lost, if_pos hc]
    rfl

/-- Either both do the same, and do not go on; or the one that was told ends, and the other one
goes on. -/
def Parts (c : Client) (s : Signal) : Prop :=
  (c.told.step s = ((c.step s).1.told, (c.step s).2) ∧ ∀ o ∈ (c.step s).2, o.isRenewal = false)
  ∨ (c.told.step s).1 = { c.told with phase := .stopped }
    ∧ (c.told.step s).2.filter Occurrence.isOutward = []
    ∧ ∃ o later, (c.step s).2.filter Occurrence.isOutward = o :: later ∧ o.isRenewal = true

theorem parts_of_lost {s : Signal} {notice : Notice} (h : c.step s = c.lost notice)
    (htold : c.told.step s = c.told.lost notice) : c.Parts s := by
  cases hc : c.running with
  | true =>
    obtain ⟨hends, hgoes⟩ := told_lost hc notice
    refine .inr ⟨?_, ?_, .waited c.settings.reconnectDelay, [], ?_, rfl⟩
    · rw [htold, hends]
    · rw [htold, hends]
      rfl
    · rw [h, hgoes]
  | false =>
    have hsame : c.told = c := by rw [told, ← hc]
    refine .inl ⟨?_, ?_⟩
    · rw [htold, h, hsame, lost, hc]
      rfl
    · rw [h, lost, hc]
      simp [Occurrence.isRenewal]

theorem parts_of_failed {s : Signal} {fault : FeedFault} (h : c.step s = c.failed fault)
    (htold : c.told.step s = c.told.failed fault) : c.Parts s := by
  cases hnotice : fault.notice? with
  | some notice =>
    refine @parts_of_lost c s notice ?_ ?_
    · rw [h, failed, hnotice]
    · rw [htold, failed, hnotice]
  | none =>
    refine .inl ⟨?_, ?_⟩
    · rw [htold, h, failed, failed, hnotice]
      rfl
    · rw [h, failed, hnotice]
      exact List.forall_mem_nil _

theorem not_isRenewal_receive (c : Client) (m : Message) :
    ∀ o ∈ (c.receive m).2, o.isRenewal = false := by
  rw [receive, List.forall_mem_cons, List.forall_mem_cons]
  exact ⟨rfl, rfl, Occurrence.not_isRenewal_notices _⟩

theorem told_receive (c : Client) (m : Message) :
    c.told.receive m = ((c.receive m).1.told, (c.receive m).2) := rfl

/-- A signal that ends neither a connection nor a wait is met without a look at the request. -/
theorem parts (c : Client) (s : Signal) : c.Parts s := by
  obtain ⟨settings, running, phase⟩ := c
  cases s with
  | stop =>
    cases phase <;> exact .inl ⟨rfl, by simp [step, stop, Occurrence.isRenewal, Phase.isOpen]⟩
  | connected => cases phase <;> exact .inl ⟨rfl, by simp [step, Occurrence.isRenewal]⟩
  | subscribed => cases phase <;> exact .inl ⟨rfl, by simp [step, Occurrence.isRenewal]⟩
  | taken =>
    cases phase with
    | delivering events =>
      cases events <;> exact .inl ⟨rfl, by simp [step, Occurrence.isRenewal]⟩
    | _ => exact .inl ⟨rfl, List.forall_mem_nil _⟩
  | message m =>
    cases phase with
    | listening =>
      exact .inl ⟨told_receive ⟨settings, running, .listening⟩ m, not_isRenewal_receive _ m⟩
    | _ => exact .inl ⟨rfl, List.forall_mem_nil _⟩
  | notConnected fault =>
    cases phase with
    | connecting => exact parts_of_failed rfl rfl
    | _ => exact .inl ⟨rfl, List.forall_mem_nil _⟩
  | notSubscribed fault =>
    cases phase with
    | subscribing => exact parts_of_failed rfl rfl
    | _ => exact .inl ⟨rfl, List.forall_mem_nil _⟩
  | ended ending =>
    cases phase with
    | listening =>
      cases ending with
      | none => exact parts_of_lost rfl rfl
      | some fault => exact parts_of_failed rfl rfl
    | _ => cases ending <;> exact .inl ⟨rfl, List.forall_mem_nil _⟩
  | delayPassed =>
    cases phase with
    | waiting =>
      cases running with
      | true => exact .inr ⟨rfl, rfl, .attempted settings, [], rfl, rfl⟩
      | false => exact .inl ⟨rfl, by simp [step, Occurrence.isRenewal]⟩
    | _ => exact .inl ⟨rfl, List.forall_mem_nil _⟩

/-! ### Many signals -/

theorem step_of_idle (hc : c.running = false) (h : c.phase.isIdle = true) (s : Signal) :
    (c.step s).1.running = false ∧ (c.step s).1.phase.isIdle = true
      ∧ (c.phase = .stopped → (c.step s).1.phase = .stopped)
      ∧ (c.step s).2.filter Occurrence.isOutward = [] := by
  obtain ⟨settings, running, phase⟩ := c
  subst hc
  cases phase with
  | waiting =>
    cases s with
    | ended ending => cases ending <;> exact ⟨rfl, rfl, nofun, rfl⟩
    | _ => exact ⟨rfl, rfl, nofun, rfl⟩
  | stopped =>
    cases s with
    | ended ending => cases ending <;> exact ⟨rfl, rfl, fun _ => rfl, rfl⟩
    | _ => exact ⟨rfl, rfl, fun _ => rfl, rfl⟩
  | interrupted =>
    cases s with
    | ended ending => cases ending <;> exact ⟨rfl, rfl, nofun, rfl⟩
    | _ => exact ⟨rfl, rfl, nofun, rfl⟩
  | connecting | subscribing | listening | delivering _ => cases h

/-- A client that was told and has no connection does nothing more. -/
theorem steps_of_idle (hc : c.running = false) (h : c.phase.isIdle = true) (signals : List Signal) :
    (c.phase = .stopped → (c.steps signals).1.phase = .stopped)
      ∧ (c.steps signals).2.filter Occurrence.isOutward = [] := by
  induction signals generalizing c with
  | nil => exact ⟨id, rfl⟩
  | cons s signals ih =>
    obtain ⟨hrunning, hidle, hstopped, hquiet⟩ := step_of_idle hc h s
    obtain ⟨hlast, hlater⟩ := ih hrunning hidle
    refine ⟨fun hphase => hlast (hstopped hphase), ?_⟩
    rw [steps, List.filter_append, hquiet, hlater, List.append_nil]

/-- After the request everything is as it would have been without it, up to the first wait or
attempt. -/
theorem outward_told (c : Client) (signals : List Signal) :
    (c.told.steps signals).2.filter Occurrence.isOutward
      = ((c.steps signals).2.filter Occurrence.isOutward).takeWhile (!·.isRenewal) := by
  induction signals generalizing c with
  | nil => rfl
  | cons s signals ih =>
    rw [steps, steps, List.filter_append, List.filter_append]
    rcases c.parts s with ⟨hsame, hkept⟩ | ⟨hends, hquiet, o, later, hgoes, ho⟩
    · rw [hsame, ih, List.takeWhile_append_of_pos]
      intro o ho
      simp [hkept o (List.mem_filter.mp ho).1]
    · rw [hquiet, hends, (steps_of_idle rfl rfl signals).2, hgoes, List.cons_append,
        List.takeWhile_cons_of_neg (by simp [ho])]
      rfl

/-- Where the client would have waited or tried again without the request, it has ended. -/
theorem stopped_told {o : Occurrence} {signals : List Signal} (ho : o ∈ (c.steps signals).2)
    (hrenewal : o.isRenewal = true) : (c.told.steps signals).1.phase = .stopped := by
  induction signals generalizing c with
  | nil => cases ho
  | cons s signals ih =>
    rcases c.parts s with ⟨hsame, hkept⟩ | ⟨hends, -⟩
    · rw [steps, List.mem_append] at ho
      rw [steps, hsame]
      refine ih (ho.resolve_left fun ho => ?_)
      rw [hkept o ho] at hrenewal
      cases hrenewal
    · show ((c.told.step s).1.steps signals).1.phase = .stopped
      rw [hends]
      exact (steps_of_idle rfl rfl signals).1 rfl

/-! ### Events and subscriptions -/

/-- What a step does with events and subscriptions: those that are handed out are the next of the
frame, and a subscription is sent over a new connection only. -/
structure Accounts (c : Client) (after : Client × List Occurrence) : Prop where
  settings : after.1.settings = c.settings
  running : c.running = false → after.1.running = false
  events : after.2.filterMap Occurrence.event? ++ after.1.phase.pending
    = c.phase.pending ++ after.2.flatMap Occurrence.brought
  sent : after.2.filterMap Occurrence.sent? = []
    ∨ c.phase = .connecting ∧ after.1.phase ≠ .connecting
      ∧ after.2.filterMap Occurrence.sent? = [subscription c.settings]
  connecting : c.running = false → after.1.phase = .connecting → c.phase = .connecting

theorem accounts_lost (hc : c.phase.pending = []) (notice : Notice) :
    c.Accounts (c.lost notice) := by
  cases h : c.running with
  | true =>
    have hgoes : c.running ≠ false := by simp [h]
    rw [lost, h, if_pos rfl]
    exact ⟨rfl, fun hends => absurd hends hgoes, by rw [hc]; rfl, .inl rfl, fun _ h => by cases h⟩
  | false =>
    rw [lost, h, if_neg Bool.false_ne_true]
    exact ⟨rfl, fun _ => rfl, by rw [hc]; rfl, .inl rfl, fun _ h => by cases h⟩

theorem accounts_failed (hc : c.phase.pending = []) (fault : FeedFault) :
    c.Accounts (c.failed fault) := by
  unfold failed
  split
  · exact accounts_lost hc _
  · exact ⟨rfl, id, by rw [hc]; rfl, .inl rfl, fun _ h => by cases h⟩

theorem accounts_receive (hc : c.phase = .listening) (m : Message) : c.Accounts (c.receive m) where
  settings := rfl
  running := id
  events := by
    rw [receive, List.filterMap_cons_none rfl, List.filterMap_cons_none rfl,
      Occurrence.event?_notices, List.flatMap_cons, List.flatMap_cons, Occurrence.brought_notices,
      pending_withEvents, hc]
    simp [Occurrence.brought, Phase.pending]
  sent := by
    rw [receive, List.filterMap_cons_none rfl, List.filterMap_cons_none rfl,
      Occurrence.sent?_notices]
    exact .inl rfl
  connecting _ h := by
    cases hevents : (Frame.ofMessage m).events <;> simp [receive, withEvents, hevents] at h

theorem accounts_taken {e : Event} {rest : List Event} (hc : c.phase = .delivering (e :: rest)) :
    c.Accounts ({ c with phase := withEvents rest }, [.yielded e]) where
  settings := rfl
  running := id
  events := by
    rw [hc, pending_withEvents]
    simp [Occurrence.event?, Occurrence.brought, Phase.pending]
  sent := .inl rfl
  connecting _ h := by cases rest <;> cases h

theorem accounts_step (c : Client) (s : Signal) : c.Accounts (c.step s) := by
  unfold step
  split
  next =>
    refine ⟨rfl, fun _ => rfl, ?_, .inl ?_, fun _ => id⟩
    · cases h : c.phase.isOpen <;> simp [stop, h, Occurrence.event?, Occurrence.brought]
    · cases h : c.phase.isOpen <;> simp [stop, h, Occurrence.sent?]
  next hc =>
    exact ⟨rfl, id, by rw [hc]; rfl, .inr ⟨hc, fun h => (by cases h), rfl⟩, fun _ h => by cases h⟩
  next hc => exact accounts_failed (by rw [hc]; rfl) _
  next hc => exact ⟨rfl, id, by rw [hc]; rfl, .inl rfl, fun _ h => by cases h⟩
  next hc => exact accounts_failed (by rw [hc]; rfl) _
  next hc => exact accounts_receive hc _
  next hc => exact accounts_taken hc
  next hc => exact accounts_lost (by rw [hc]; rfl) _
  next hc => exact accounts_failed (by rw [hc]; rfl) _
  next hc =>
    cases h : c.running with
    | true =>
      have hgoes : c.running ≠ false := by simp [h]
      exact ⟨rfl, fun hends => absurd hends hgoes, by rw [hc]; rfl, .inl rfl,
        fun hends => absurd hends hgoes⟩
    | false => exact ⟨rfl, fun _ => rfl, by rw [hc]; rfl, .inl rfl, fun _ h => by cases h⟩
  next => exact ⟨rfl, id, by simp, .inl rfl, fun _ => id⟩

theorem settings_steps (c : Client) (signals : List Signal) :
    (c.steps signals).1.settings = c.settings := by
  induction signals generalizing c with
  | nil => rfl
  | cons s signals ih => rw [steps, ih, (c.accounts_step s).settings]

/-- Every event comes from the frame under way or from a message that arrives, in their order, and
none of them is passed over. -/
theorem events_steps (c : Client) (signals : List Signal) :
    (c.steps signals).2.filterMap Occurrence.event? ++ (c.steps signals).1.phase.pending
      = c.phase.pending ++ (c.steps signals).2.flatMap Occurrence.brought := by
  induction signals generalizing c with
  | nil => simp [steps]
  | cons s signals ih =>
    rw [steps, List.filterMap_append, List.flatMap_append, List.append_assoc, ih,
      ← List.append_assoc, (c.accounts_step s).events, List.append_assoc]

theorem brought_lost (c : Client) (notice : Notice) :
    (c.lost notice).2.flatMap Occurrence.brought = [] := by
  unfold lost
  split
  · rfl
  · rfl

theorem brought_failed (c : Client) (fault : FeedFault) :
    (c.failed fault).2.flatMap Occurrence.brought = [] := by
  unfold failed
  split
  · exact brought_lost _ _
  · rfl

theorem brought_step {s : Signal} (h : ∀ m, s ≠ .message m) (c : Client) :
    (c.step s).2.flatMap Occurrence.brought = [] := by
  unfold step
  split
  next => cases h : c.phase.isOpen <;> simp [stop, h, Occurrence.brought]
  next => rfl
  next => exact brought_failed _ _
  next => rfl
  next => exact brought_failed _ _
  next m _ => exact absurd rfl (h m)
  next => rfl
  next => exact brought_lost _ _
  next => exact brought_failed _ _
  next => split <;> rfl
  next => rfl

/-- Without messages no events are handed out but those of the frame under way. -/
theorem events_prefix {signals : List Signal} (h : ∀ m, .message m ∉ signals) (c : Client) :
    (c.steps signals).2.filterMap Occurrence.event? <+: c.phase.pending := by
  have hbrought : (c.steps signals).2.flatMap Occurrence.brought = [] := by
    induction signals generalizing c with
    | nil => rfl
    | cons s signals ih =>
      have hs : ∀ m, s ≠ .message m := fun m hs => h m (hs ▸ List.mem_cons_self)
      rw [steps, List.flatMap_append, brought_step hs,
        ih (fun m hm => h m (List.mem_cons_of_mem _ hm)), List.append_nil]
  have hevents := events_steps c signals
  rw [hbrought, List.append_nil] at hevents
  exact ⟨_, hevents⟩

/-- A client that was told and is not opening a connection does not subscribe. -/
theorem sent_steps_of_ne (h : c.running = false) (hne : c.phase ≠ .connecting)
    (signals : List Signal) : (c.steps signals).2.filterMap Occurrence.sent? = [] := by
  induction signals generalizing c with
  | nil => rfl
  | cons s signals ih =>
    have hstep := c.accounts_step s
    have hsent := hstep.sent.resolve_right fun hopens => hne hopens.1
    rw [steps, List.filterMap_append, hsent,
      ih (hstep.running h) (fun hopens => hne (hstep.connecting h hopens)), List.append_nil]

/-- A client that was told subscribes at most once, over the connection that it was opening. -/
theorem sent_steps (h : c.running = false) (signals : List Signal) :
    (c.steps signals).2.filterMap Occurrence.sent? = []
      ∨ c.phase = .connecting
        ∧ (c.steps signals).2.filterMap Occurrence.sent? = [subscription c.settings] := by
  induction signals generalizing c with
  | nil => exact .inl rfl
  | cons s signals ih =>
    have hstep := c.accounts_step s
    rw [steps, List.filterMap_append]
    rcases hstep.sent with hsent | ⟨hopens, hopened, hsent⟩
    · rw [hsent, List.nil_append]
      rcases ih (hstep.running h) with hlater | ⟨hopens, hlater⟩
      · exact .inl hlater
      · exact .inr ⟨hstep.connecting h hopens, by rw [hlater, hstep.settings]⟩
    · rw [hsent, sent_steps_of_ne (hstep.running h) hopened, List.append_nil]
      exact .inr ⟨hopens, rfl⟩

/-! ### Scripts -/

/-- In a script, whose signals end with a wait that is over, the client ends wherever it is told. -/
theorem stopped_in_script {script : List Attempt} (h : ∀ a ∈ script, a.Handled)
    {before after : List Signal} (hsplit : Script.course script = before ++ after)
    (hafter : after ≠ []) : ((run settings before).1.told.steps after).1.phase = .stopped := by
  obtain ⟨front, last, rfl⟩ := List.eq_nil_or_concat after |>.resolve_left hafter
  have hcourse := delayPassed_course script
  rw [hsplit, List.concat_eq_append, ← List.append_assoc, ← List.cons_append] at hcourse
  obtain ⟨hfront, hlast⟩ := List.append_inj' hcourse rfl
  cases hlast
  have hwaiting : ((run settings before).1.steps front).1 = live settings .waiting := by
    have hscript := (@goes_script settings script h).client
    rw [← hfront, ← List.cons_append, steps_append] at hscript
    exact hscript
  refine stopped_told (o := .attempted settings) ?_ rfl
  rw [List.concat_eq_append, steps_append, hwaiting]
  exact List.mem_append_right _ List.mem_cons_self

/-- A client is told to stop at any point of any run. What is seen of it then is what would have
been seen otherwise, up to the first wait or attempt. It makes no attempt, and subscribes only over
a connection that was being opened. The events that it still hands out are the rest of the frame
under way, and those of messages that arrive nevertheless. Without a connection it does nothing.
It has ended where it would have waited or tried again, and so at the end of every script. -/
theorem stops_with_connection (settings : FeedSettings) (before after : List Signal) :
    let c := (run settings before).1
    let later := (c.step .stop).1.steps after
    later.2.filter Occurrence.isOutward
      = ((c.steps after).2.filter Occurrence.isOutward).takeWhile (!·.isRenewal)
    ∧ later.2.filterMap Occurrence.attempted? = []
    ∧ (later.2.filterMap Occurrence.sent? = []
      ∨ c.phase = .connecting ∧ later.2.filterMap Occurrence.sent? = [subscription settings])
    ∧ later.2.filterMap Occurrence.event? ++ later.1.phase.pending
      = c.phase.pending ++ later.2.flatMap Occurrence.brought
    ∧ ((∀ m, .message m ∉ after) → later.2.filterMap Occurrence.event? <+: c.phase.pending)
    ∧ (c.phase.isIdle = true → later.2.filter Occurrence.isOutward = [])
    ∧ (∀ o ∈ (c.steps after).2, o.isRenewal = true → later.1.phase = .stopped)
    ∧ ∀ script, (∀ a ∈ script, a.Handled) → Script.course script = before ++ after → after ≠ [] →
      later.1.phase = .stopped := by
  intro c later
  have hseen := outward_told c after
  have hsettings : c.settings = settings := settings_steps (start settings).1 before
  refine ⟨hseen, ?_, ?_, events_steps c.told after, fun h => events_prefix h c.told,
    fun hidle => (steps_of_idle (c := c.told) rfl hidle after).2,
    fun o ho hrenewal => stopped_told ho hrenewal,
    fun script h hsplit hafter => stopped_in_script h hsplit hafter⟩
  · rw [← Occurrence.filterMap_outward fun _ => rfl]
    show (((c.told.steps after).2.filter _).filterMap _) = _
    rw [hseen, List.filterMap_eq_nil_iff]
    intro o ho
    have hkept := List.mem_takeWhile_imp ho
    cases o with
    | attempted settings => cases hkept
    | _ => rfl
  · exact hsettings ▸ sent_steps (c := c.told) rfl after

/-- Two imports in one frame. -/
def pairFrame : Message := .text "[6,[1,[10,\"a\",0,0,5]],6,[1,[11,\"b\",0,0,5]]]"

/-- A connection that delivers them. -/
def pairScript : List Attempt := [.connected ⟨none, [pairFrame], none⟩]

theorem stops_amid_pair :
    let c := (run plainFeed [.connected, .subscribed, .message pairFrame, .taken]).1
    let later := (c.step .stop).1.steps [.taken, .ended none, .delayPassed]
    (∀ a ∈ pairScript, a.Handled)
    ∧ Script.course pairScript
      = [.connected, .subscribed, .message pairFrame, .taken] ++ [.taken, .ended none, .delayPassed]
    ∧ later.1.phase = .stopped ∧ later.2.filterMap Occurrence.attempted? = []
    ∧ later.2.filterMap Occurrence.event? <+: [.blockImport ⟨1, 11, "b", 5⟩] := by
  have hhandled : ∀ a ∈ pairScript, a.Handled := by decide
  have hsplit : Script.course pairScript = [.connected, .subscribed, .message pairFrame, .taken]
      ++ [.taken, .ended none, .delayPassed] := by decide +kernel
  have hpending : (run plainFeed
      [.connected, .subscribed, .message pairFrame, .taken]).1.phase.pending
        = [.blockImport ⟨1, 11, "b", 5⟩] := by decide +kernel
  obtain ⟨-, hattempts, -, -, hevents, -, -, hscript⟩ := stops_with_connection plainFeed
    [.connected, .subscribed, .message pairFrame, .taken] [.taken, .ended none, .delayPassed]
  have hlater := hevents (by simp)
  rw [hpending] at hlater
  exact ⟨hhandled, hsplit, hscript pairScript hhandled hsplit (by simp), hattempts, hlater⟩

/-- Told to stop between the two imports of a frame, the client hands out the second one; told
while it opens a connection, it subscribes. -/
theorem handed_out_after_stop :
    Script.signals ⟨1, false⟩ pairScript
      = [.connected, .subscribed, .message pairFrame, .taken] ++ .stop :: [.taken, .ended none]
    ∧ (((run plainFeed [.connected, .subscribed, .message pairFrame, .taken]).1.step .stop).1.steps
        [.taken, .ended none]).2.filterMap Occurrence.event? = [.blockImport ⟨1, 11, "b", 5⟩]
    ∧ (((run plainFeed []).1.step .stop).1.steps [.connected]).2.filterMap Occurrence.sent?
      = [("subscribe:0xg" : Text)] := by
  refine ⟨by decide +kernel, by decide +kernel, by decide +kernel⟩

end Client

end AuthorWatch
