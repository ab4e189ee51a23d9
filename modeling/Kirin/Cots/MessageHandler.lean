import Kirin.Core.PopulatePb
import Kirin.Library.Memoization
import Mathlib.Logic.Relation

/-!
# Kirin: the messages of the causes of a COTS feed

`MessageHandler` of `kirin/cots/message_handler.py` asks a service for the message
of a cause.  It keeps the token that gives access to the service, and the messages
of all the causes.  A token that is refused is forgotten, and the service is asked
once more.

Several feeds may be processed together, and each of their calls waits for the
answers of the service while the others go on.

* `serviceCaller`, `accessTokenOf`, `messagesOf`: the answers of the service.
* `getMessage`: a call that nothing interrupts.
* `Step`: what the calls do, step by step, in any order.
* `getMessage_run`: a call that nothing interrupts is made of such steps.
* `Safe`: the messages and the tokens that are kept come from the service.
* `cause_messages`: what the calls of every run return and ask for.
-/

namespace Kirin
namespace Cots

open Kirin.Core
open Memoization (Memo Recent)
open Relation (ReflTransGen)

/-- What becomes of a request to the service. -/
inductive Reply (α : Type)
  | answered (status : Nat) (content : α)
  | timeout
  | raised
deriving Repr

/-- The exceptions of a request, those of the reading of its answer being other. -/
inductive ServiceError
  | unauthorizedOnSubService
  | objectNotFound
  | subServiceError
  | other
deriving DecidableEq, Repr

def serviceCaller {α : Type} : Reply α → Except ServiceError α
  | .answered 200 content => .ok content
  | .answered 401 _ => .error .unauthorizedOnSubService
  | .answered _ _ => .error .objectNotFound
  | .timeout => .error .subServiceError
  | .raised => .error .subServiceError

/-- The content of the answer to a request of a token. -/
inductive TokenContent
  | malformed
  | object (accessToken : Option String)
deriving DecidableEq, Repr

/-- The token of an answer, if it has one that is not empty. -/
def accessTokenOf (reply : Reply TokenContent) :
    Except ServiceError (Option String) := do
  match ← serviceCaller reply with
  | .malformed => throw .other
  | .object accessToken => return truthyText accessToken

/-- A cause, with the keys that it has; its message may be null. -/
structure CauseMessage where
  id : Option String
  labelExt : Option (Option String)
deriving DecidableEq, Repr

/-- The content of the answer to a request of the messages. -/
inductive MessagesContent
  | malformed
  | causes (list : List CauseMessage)
deriving DecidableEq, Repr

/-- The messages by cause: the last one of a cause is taken. -/
abbrev Messages :=
  List (String × Option String)

def Messages.get (messages : Messages) (index : String) : Option String :=
  ((messages.filter (fun p => p.1 == index)).getLast?).bind Prod.snd

/-- The messages of an answer: a cause without one of the two keys is skipped. -/
def messagesOf (reply : Reply MessagesContent) :
    Except ServiceError Messages := do
  match ← serviceCaller reply with
  | .malformed => throw .other
  | .causes list =>
      return list.filterMap (fun m =>
        match m.id, m.labelExt with
        | some id, some label => some (id, label)
        | _, _ => none)

/-- The times for which a token and the messages are kept. -/
structure MessageConfig where
  timeoutToken : Int
  cacheTimeout : Int
deriving DecidableEq, Repr

/-- What is kept of the service. -/
structure Caches where
  token : Memo String
  messages : Memo Messages

section Sequential

variable (config : MessageConfig) (now : Datetime)

/-- The token, asked for unless it is kept; no token is kept as none. -/
def getAccessToken (reply : Reply TokenContent) (caches : Caches) :
    Except ServiceError (Option String) × Caches :=
  match caches.token.read config.timeoutToken now with
  | some token => (.ok (some token), caches)
  | none =>
      match accessTokenOf reply with
      | .ok (some token) =>
          (.ok (some token),
            { caches with
              token := caches.token.keep caches.token.version token now })
      | result => (result, caches)

def callWebservice (tokenReply : Reply TokenContent)
    (messagesReply : Reply MessagesContent) (caches : Caches) :
    Except ServiceError Messages × Caches :=
  match getAccessToken config now tokenReply caches with
  | (.error e, caches) => (.error e, caches)
  | (.ok none, caches) => (.error .subServiceError, caches)
  | (.ok (some _), caches) => (messagesOf messagesReply, caches)

/-- The replies to the requests of a call, the second ones in case of a retry. -/
structure Replies where
  token : Reply TokenContent
  messages : Reply MessagesContent
  tokenAgain : Reply TokenContent
  messagesAgain : Reply MessagesContent

/-- The messages, asked for unless they are kept, and once more with a new token. -/
def callWebserviceSafer (replies : Replies) (caches : Caches) :
    Except ServiceError Messages × Caches :=
  match caches.messages.read config.cacheTimeout now with
  | some messages => (.ok messages, caches)
  | none =>
      let (result, caches) :=
        match callWebservice config now replies.token replies.messages caches with
        | (.error .unauthorizedOnSubService, caches) =>
            callWebservice config now replies.tokenAgain replies.messagesAgain
              { caches with token := caches.token.forget }
        | called => called
      match result with
      | .ok messages =>
          (.ok messages,
            { caches with
              messages :=
                caches.messages.keep caches.messages.version messages now })
      | .error e => (.error e, caches)

/-- The message of a cause, or none when anything goes wrong. -/
def getMessage (configured breakerOpen : Bool) (replies : Replies)
    (index : String) (caches : Caches) : Option String × Caches :=
  if !configured || breakerOpen then (none, caches)
  else
    match callWebserviceSafer config now replies caches with
    | (.ok messages, caches) => (messages.get index, caches)
    | (.error _, caches) => (none, caches)

end Sequential

/-- The first request of a call, or the one after its token was forgotten. -/
inductive Try
  | first
  | second (version : Nat)
deriving DecidableEq, Repr

/-- The version of the token from which on a try takes one. -/
def Try.since : Try → Nat
  | .first => 0
  | .second version => version

/-- What a call is about to do, for the message of a cause. -/
inductive Phase
  /-- It has not started. -/
  | ready
  /-- It looks for the token that is kept. -/
  | reading (index : String) (attempt : Try)
  /-- It waits for a token. -/
  | asking (index : String) (attempt : Try) (version : Nat)
  /-- It waits for the messages, with a token that it has got at some time. -/
  | calling (index : String) (attempt : Try) (token : String) (got : Datetime)
  /-- It has returned. -/
  | returned (index : String) (message : Option String) (t : Datetime)
deriving DecidableEq, Repr

/-- A token given by the service, for a version that was looked for. -/
structure GivenToken where
  token : String
  version : Nat
  givenAt : Datetime
deriving DecidableEq, Repr

/-- The messages given by the service for a token. -/
structure GivenMessages where
  token : String
  messages : Messages
  givenAt : Datetime
deriving DecidableEq, Repr

/--
The caches and the calls, with what the service has given so far and the requests
that each call has made for a token and for the messages.
-/
structure Calls (ι : Type) extends Caches where
  now : Datetime
  phase : ι → Phase
  tokens : List GivenToken
  answers : List GivenMessages
  tokenRequests : ι → Nat
  messagesRequests : ι → Nat

section Steps

variable {ι : Type} [DecidableEq ι]

namespace Calls

def goTo (s : Calls ι) (i : ι) (phase : Phase) : Calls ι :=
  { s with phase := Function.update s.phase i phase }

/-- The first refusal forgets the token, and anything else ends the call. -/
def onError (s : Calls ι) (i : ι) (index : String) (attempt : Try)
    (e : ServiceError) : Calls ι :=
  match attempt, e with
  | .first, .unauthorizedOnSubService =>
      { s.goTo i (.reading index (.second (s.token.version + 1))) with
        token := s.token.forget }
  | _, _ => s.goTo i (.returned index none s.now)

def countToken (s : Calls ι) (i : ι) : Calls ι :=
  { s with
    tokenRequests :=
      Function.update s.tokenRequests i (s.tokenRequests i + 1) }

def countMessages (s : Calls ι) (i : ι) : Calls ι :=
  { s with
    messagesRequests :=
      Function.update s.messagesRequests i (s.messagesRequests i + 1) }

/-- A token is asked for. -/
def onToken (s : Calls ι) (i : ι) (index : String) (attempt : Try)
    (version : Nat) (reply : Reply TokenContent) : Calls ι :=
  match accessTokenOf reply with
  | .ok (some token) =>
      { (s.countToken i).goTo i (.calling index attempt token s.now) with
        token := s.token.keep version token s.now
        tokens := s.tokens ++
          [{ token := token, version := version, givenAt := s.now }] }
  | .ok none => (s.countToken i).onError i index attempt .subServiceError
  | .error e => (s.countToken i).onError i index attempt e

/-- The messages are asked for. -/
def onMessages (s : Calls ι) (i : ι) (index : String) (attempt : Try)
    (token : String) (reply : Reply MessagesContent) : Calls ι :=
  match messagesOf reply with
  | .ok messages =>
      { (s.countMessages i).goTo i
          (.returned index (messages.get index) s.now) with
        messages := s.messages.keep s.messages.version messages s.now
        answers := s.answers ++
          [{ token := token, messages := messages, givenAt := s.now }] }
  | .error e => (s.countMessages i).onError i index attempt e

end Calls

/--
What happens, in any order: time passes, the caches may lose what they keep, and
each call goes on with what it finds in them or with the next answer it gets.
-/
inductive Step (config : MessageConfig) : Calls ι → Calls ι → Prop
  | wait
      {s : Calls ι} (t : Datetime) (h : s.now ≤ t) :
      Step config s { s with now := t }
  | evictToken
      {s : Calls ι} :
      Step config s { s with token := s.token.evict }
  | evictMessages
      {s : Calls ι} :
      Step config s { s with messages := s.messages.evict }
  | refuse
      {s : Calls ι} {i : ι} (index : String) (h : s.phase i = .ready) :
      Step config s (s.goTo i (.returned index none s.now))
  | find
      {s : Calls ι} {i : ι} (index : String) {messages : Messages}
      (h : s.phase i = .ready)
      (hread : s.messages.read config.cacheTimeout s.now = some messages) :
      Step config s (s.goTo i (.returned index (messages.get index) s.now))
  | miss
      {s : Calls ι} {i : ι} (index : String) (h : s.phase i = .ready)
      (hread : s.messages.read config.cacheTimeout s.now = none) :
      Step config s (s.goTo i (.reading index .first))
  | findToken
      {s : Calls ι} {i : ι} {index : String} {attempt : Try} {token : String}
      (h : s.phase i = .reading index attempt)
      (hread : s.token.read config.timeoutToken s.now = some token) :
      Step config s (s.goTo i (.calling index attempt token s.now))
  | missToken
      {s : Calls ι} {i : ι} {index : String} {attempt : Try}
      (h : s.phase i = .reading index attempt)
      (hread : s.token.read config.timeoutToken s.now = none) :
      Step config s (s.goTo i (.asking index attempt s.token.version))
  | getToken
      {s : Calls ι} {i : ι} {index : String} {attempt : Try} {version : Nat}
      (h : s.phase i = .asking index attempt version)
      (reply : Reply TokenContent) :
      Step config s (s.onToken i index attempt version reply)
  | getMessages
      {s : Calls ι} {i : ι} {index : String} {attempt : Try} {token : String}
      {got : Datetime} (h : s.phase i = .calling index attempt token got)
      (reply : Reply MessagesContent) :
      Step config s (s.onMessages i index attempt token reply)

/-- The calls before any of them, with nothing kept. -/
def startCalls (ι : Type) (now : Datetime) : Calls ι where
  token := { version := 0, entry := none }
  messages := { version := 0, entry := none }
  now := now
  phase := fun _ => .ready
  tokens := []
  answers := []
  tokenRequests := fun _ => 0
  messagesRequests := fun _ => 0

/-- A token has been given for a version that a try takes. -/
def Given (config : MessageConfig) (tokens : List GivenToken) (attempt : Try)
    (token : String) (got : Datetime) : Prop :=
  ∃ g ∈ tokens, g.token = token ∧ attempt.since ≤ g.version ∧
    Recent config.timeoutToken g.givenAt got

/-- A message has been given for a token that has been given. -/
def Answered (config : MessageConfig) (tokens : List GivenToken)
    (answers : List GivenMessages) (index message : String) (t : Datetime) :
    Prop :=
  ∃ a ∈ answers, a.messages.get index = some message ∧
    Recent config.cacheTimeout a.givenAt t ∧ ∃ g ∈ tokens, g.token = a.token

/-- The requests that the earlier try of a call has made, of each kind. -/
def Try.spent : Try → Nat
  | .first => 0
  | .second _ => 1

/-- What is known of a call in a phase. -/
def PhaseSafe (config : MessageConfig) (s : Calls ι) (i : ι) : Phase → Prop
  | .ready => s.tokenRequests i = 0 ∧ s.messagesRequests i = 0
  | .reading _ attempt =>
      attempt.since ≤ s.token.version ∧
        s.tokenRequests i ≤ attempt.spent ∧ s.messagesRequests i ≤ attempt.spent
  | .asking _ attempt version =>
      attempt.since ≤ version ∧
        s.tokenRequests i ≤ attempt.spent ∧ s.messagesRequests i ≤ attempt.spent
  | .calling _ attempt token got =>
      Given config s.tokens attempt token got ∧
        s.tokenRequests i ≤ attempt.spent + 1 ∧
        s.messagesRequests i ≤ attempt.spent
  | .returned index message t =>
      (∀ m ∈ message, Answered config s.tokens s.answers index m t) ∧
        s.tokenRequests i ≤ 2 ∧ s.messagesRequests i ≤ 2

/-- What is kept and given comes from the service. -/
structure Kept (s : Calls ι) : Prop where
  token : s.token.Backed (fun version token kept =>
    ∃ g ∈ s.tokens, g.token = token ∧ g.version = version ∧ g.givenAt = kept)
  messages : s.messages.Backed (fun _ messages kept =>
    ∃ a ∈ s.answers, a.messages = messages ∧ a.givenAt = kept)
  tokensPast : ∀ g ∈ s.tokens, g.givenAt ≤ s.now
  answersPast : ∀ a ∈ s.answers, a.givenAt ≤ s.now
  tokenOf : ∀ a ∈ s.answers, ∃ g ∈ s.tokens, g.token = a.token

/-- What is kept comes from the service, and so does what the calls return. -/
structure Safe (config : MessageConfig) (s : Calls ι) : Prop extends Kept s where
  phase : ∀ i, PhaseSafe config s i (s.phase i)

/-- The service has given more, and only one call has gone on. -/
structure Grows (s s' : Calls ι) (i : ι) : Prop where
  tokens : ∀ g ∈ s.tokens, g ∈ s'.tokens
  answers : ∀ a ∈ s.answers, a ∈ s'.answers
  version : s.token.version ≤ s'.token.version
  others : ∀ j, j ≠ i → s'.phase j = s.phase j ∧
    s'.tokenRequests j = s.tokenRequests j ∧
    s'.messagesRequests j = s.messagesRequests j

section Invariant

variable {config : MessageConfig} {s s' : Calls ι} {i : ι} {index : String}
variable {attempt : Try}

omit [DecidableEq ι] in
/-- What is known of a call stays known when another one goes on. -/
theorem PhaseSafe.of_grows
    {j : ι} {phase : Phase} (h : PhaseSafe config s j phase)
    (hgrows : Grows s s' i) (hj : j ≠ i) :
    PhaseSafe config s' j phase := by
  obtain ⟨-, htoken, hmessages⟩ := hgrows.others j hj
  unfold PhaseSafe at h ⊢
  rw [htoken, hmessages]
  cases phase with
  | ready =>
      exact h
  | reading index attempt =>
      exact ⟨h.1.trans hgrows.version, h.2⟩
  | asking index attempt version =>
      exact h
  | calling index attempt token got =>
      obtain ⟨⟨g, hg, hgiven⟩, hrequests⟩ := h
      exact ⟨⟨g, hgrows.tokens g hg, hgiven⟩, hrequests⟩
  | returned index message t =>
      refine ⟨fun m hm => ?_, h.2⟩
      obtain ⟨a, ha, hget, hrecent, g, hg, htoken⟩ := h.1 m hm
      exact ⟨a, hgrows.answers a ha, hget, hrecent, g, hgrows.tokens g hg, htoken⟩

/-- The calls are still safe once a call has gone on safely. -/
theorem Safe.of_grows
    (h : Safe config s) (hgrows : Grows s s' i) (hkept : Kept s')
    (hphase : PhaseSafe config s' i (s'.phase i)) :
    Safe config s' where
  toKept := hkept
  phase := by
    intro j
    by_cases hj : j = i
    · subst hj
      exact hphase
    · rw [(hgrows.others j hj).1]
      exact (h.phase j).of_grows hgrows hj

omit [DecidableEq ι] in
theorem Grows.trans
    {s'' : Calls ι} (h : Grows s s' i) (h' : Grows s' s'' i) :
    Grows s s'' i where
  tokens := fun g hg => h'.tokens g (h.tokens g hg)
  answers := fun a ha => h'.answers a (h.answers a ha)
  version := h.version.trans h'.version
  others := by
    intro j hj
    obtain ⟨hphase, htoken, hmessages⟩ := h.others j hj
    obtain ⟨hphase', htoken', hmessages'⟩ := h'.others j hj
    exact ⟨hphase'.trans hphase, htoken'.trans htoken,
      hmessages'.trans hmessages⟩

@[simp] theorem goTo_now
    (s : Calls ι) (i : ι) (phase : Phase) :
    (s.goTo i phase).now = s.now :=
  rfl

@[simp] theorem goTo_toCaches
    (s : Calls ι) (i : ι) (phase : Phase) :
    (s.goTo i phase).toCaches = s.toCaches :=
  rfl

@[simp] theorem goTo_phase_self
    (s : Calls ι) (i : ι) (phase : Phase) :
    (s.goTo i phase).phase i = phase :=
  Function.update_self ..

/-- A call goes on, and nothing else changes. -/
theorem grows_goTo
    (s : Calls ι) (i : ι) (phase : Phase) :
    Grows s (s.goTo i phase) i where
  tokens := fun _ hg => hg
  answers := fun _ ha => ha
  version := Nat.le_refl _
  others := fun _ hj => ⟨Function.update_of_ne hj _ _, rfl, rfl⟩

theorem Kept.goTo
    (h : Kept s) (i : ι) (phase : Phase) :
    Kept (s.goTo i phase) where
  token := h.token
  messages := h.messages
  tokensPast := h.tokensPast
  answersPast := h.answersPast
  tokenOf := h.tokenOf

theorem Safe.goTo
    (h : Safe config s) {phase : Phase} (hphase : PhaseSafe config s i phase) :
    Safe config (s.goTo i phase) := by
  refine h.of_grows (grows_goTo s i phase) (h.toKept.goTo i phase) ?_
  rw [goTo_phase_self]
  exact hphase

/-- A request that fails ends the call, or starts its second try. -/
theorem onError_safe
    (config : MessageConfig) (hkept : Kept s)
    (htoken : s.tokenRequests i ≤ attempt.spent + 1)
    (hmessages : s.messagesRequests i ≤ attempt.spent + 1) (index : String)
    (e : ServiceError) :
    Grows s (s.onError i index attempt e) i ∧
      Kept (s.onError i index attempt e) ∧
      PhaseSafe config (s.onError i index attempt e) i
        ((s.onError i index attempt e).phase i) := by
  have hspent : attempt.spent + 1 ≤ 2 := by
    cases attempt <;> simp [Try.spent]
  unfold Calls.onError
  split
  · refine ⟨?_, ?_, ?_⟩
    · exact
        { grows_goTo s i (.reading index (.second (s.token.version + 1))) with
          version := Nat.le_succ _ }
    · exact
        { hkept.goTo i (.reading index (.second (s.token.version + 1))) with
          token := Memo.backed_of_none rfl }
    · rw [goTo_phase_self]
      exact ⟨Nat.le_refl _, htoken, hmessages⟩
  · refine ⟨grows_goTo s i _, hkept.goTo i _, ?_⟩
    rw [goTo_phase_self]
    exact ⟨fun m hm => absurd hm (Option.not_mem_none m), htoken.trans hspent,
      hmessages.trans hspent⟩

@[simp] theorem countToken_self
    (s : Calls ι) (i : ι) :
    (s.countToken i).tokenRequests i = s.tokenRequests i + 1 :=
  Function.update_self ..

@[simp] theorem countMessages_self
    (s : Calls ι) (i : ι) :
    (s.countMessages i).messagesRequests i = s.messagesRequests i + 1 :=
  Function.update_self ..

/-- A call asks for a token. -/
theorem grows_countToken
    (s : Calls ι) (i : ι) :
    Grows s (s.countToken i) i where
  tokens := fun _ hg => hg
  answers := fun _ ha => ha
  version := Nat.le_refl _
  others := fun _ hj => ⟨rfl, Function.update_of_ne hj _ _, rfl⟩

/-- A call asks for the messages. -/
theorem grows_countMessages
    (s : Calls ι) (i : ι) :
    Grows s (s.countMessages i) i where
  tokens := fun _ hg => hg
  answers := fun _ ha => ha
  version := Nat.le_refl _
  others := fun _ hj => ⟨rfl, rfl, Function.update_of_ne hj _ _⟩

/-- A call whose request fails goes on safely. -/
theorem Safe.onError
    (h : Safe config s) (hgrows : Grows s s' i) (hkept : Kept s')
    (htoken : s'.tokenRequests i ≤ attempt.spent + 1)
    (hmessages : s'.messagesRequests i ≤ attempt.spent + 1) (index : String)
    (e : ServiceError) :
    Safe config (s'.onError i index attempt e) := by
  obtain ⟨hgrows', hkept', hphase⟩ :=
    onError_safe config hkept htoken hmessages index e
  exact h.of_grows (hgrows.trans hgrows') hkept' hphase

omit [DecidableEq ι] in
/-- A token that is given is kept. -/
theorem Kept.giveToken
    (h : Kept s) (version : Nat) (token : String)
    (htokens : s'.tokens = s.tokens ++
      [{ token := token, version := version, givenAt := s.now }])
    (htoken : s'.token = s.token.keep version token s.now)
    (hmessages : s'.messages = s.messages) (hanswers : s'.answers = s.answers)
    (hnow : s'.now = s.now) :
    Kept s' where
  token := by
    rw [htoken, htokens]
    refine Memo.Backed.keep (h.token.imp ?_)
      ⟨_, List.mem_append_right _ List.mem_cons_self, rfl, rfl, rfl⟩
    rintro version token kept ⟨g, hg, hgiven⟩
    exact ⟨g, List.mem_append_left _ hg, hgiven⟩
  messages := by
    rw [hmessages, hanswers]
    exact h.messages
  tokensPast := by
    rw [htokens, hnow, List.forall_mem_append, List.forall_mem_singleton]
    exact ⟨h.tokensPast, Int.le_refl _⟩
  answersPast := by
    rw [hanswers, hnow]
    exact h.answersPast
  tokenOf := by
    rw [hanswers, htokens]
    intro a ha
    obtain ⟨g, hg, htoken⟩ := h.tokenOf a ha
    exact ⟨g, List.mem_append_left _ hg, htoken⟩

/-- A call that waits for a token goes on safely. -/
theorem Safe.onToken
    (h : Safe config s) {version : Nat}
    (hphase : s.phase i = .asking index attempt version)
    (reply : Reply TokenContent) :
    Safe config (s.onToken i index attempt version reply) := by
  have hi := h.phase i
  rw [hphase] at hi
  obtain ⟨hsince, htoken, hmessages⟩ := hi
  have hcount : (s.countToken i).tokenRequests i ≤ attempt.spent + 1 := by
    rw [countToken_self]
    exact Nat.succ_le_succ htoken
  have hkept : Kept (s.countToken i) :=
    { token := h.token, messages := h.messages, tokensPast := h.tokensPast
      answersPast := h.answersPast, tokenOf := h.tokenOf }
  have herror : ∀ e, Safe config ((s.countToken i).onError i index attempt e) :=
    h.onError (grows_countToken s i) hkept hcount
      (hmessages.trans (Nat.le_succ _)) index
  unfold Calls.onToken
  split
  · rename_i token haccess
    have hgoes := (grows_countToken s i).trans (grows_goTo (s.countToken i) i
      (.calling index attempt token s.now))
    refine h.of_grows
      { hgoes with
        tokens := fun g hg => List.mem_append_left _ hg
        version := Nat.le_of_eq (Memo.keep_version ..).symm }
      (h.toKept.giveToken version token rfl rfl rfl rfl rfl) ?_
    rw [goTo_phase_self]
    exact ⟨⟨_, List.mem_append_right _ List.mem_cons_self, rfl, hsince,
      Memoization.recent_self _ _⟩, hcount, hmessages⟩
  · exact herror _
  · exact herror _

omit [DecidableEq ι] in
/-- The messages that are given for a given token are kept. -/
theorem Kept.giveMessages
    (h : Kept s) (version : Nat) (token : String) (messages : Messages)
    (hgiven : ∃ g ∈ s.tokens, g.token = token)
    (hanswers : s'.answers = s.answers ++
      [{ token := token, messages := messages, givenAt := s.now }])
    (hmessages : s'.messages = s.messages.keep version messages s.now)
    (htoken : s'.token = s.token) (htokens : s'.tokens = s.tokens)
    (hnow : s'.now = s.now) :
    Kept s' where
  token := by
    rw [htoken, htokens]
    exact h.token
  messages := by
    rw [hmessages, hanswers]
    refine Memo.Backed.keep (h.messages.imp ?_)
      ⟨_, List.mem_append_right _ List.mem_cons_self, rfl, rfl⟩
    rintro version messages kept ⟨a, ha, hanswer⟩
    exact ⟨a, List.mem_append_left _ ha, hanswer⟩
  tokensPast := by
    rw [htokens, hnow]
    exact h.tokensPast
  answersPast := by
    rw [hanswers, hnow, List.forall_mem_append, List.forall_mem_singleton]
    exact ⟨h.answersPast, Int.le_refl _⟩
  tokenOf := by
    rw [hanswers, htokens, List.forall_mem_append, List.forall_mem_singleton]
    exact ⟨h.tokenOf, hgiven⟩

/-- A call that waits for the messages goes on safely. -/
theorem Safe.onMessages
    (h : Safe config s) {token : String} {got : Datetime}
    (hphase : s.phase i = .calling index attempt token got)
    (reply : Reply MessagesContent) :
    Safe config (s.onMessages i index attempt token reply) := by
  have hi := h.phase i
  rw [hphase] at hi
  obtain ⟨⟨g, hg, rfl, -⟩, htoken, hmessages⟩ := hi
  have hcount : (s.countMessages i).messagesRequests i ≤ attempt.spent + 1 := by
    rw [countMessages_self]
    exact Nat.succ_le_succ hmessages
  have hspent : attempt.spent + 1 ≤ 2 := by
    cases attempt <;> simp [Try.spent]
  unfold Calls.onMessages
  split
  · rename_i messages hanswer
    have hgoes := (grows_countMessages s i).trans (grows_goTo (s.countMessages i)
      i (.returned index (messages.get index) s.now))
    refine h.of_grows
      { hgoes with answers := fun a ha => List.mem_append_left _ ha }
      (h.toKept.giveMessages s.messages.version g.token messages ⟨g, hg, rfl⟩
        rfl rfl rfl rfl rfl) ?_
    rw [goTo_phase_self]
    exact ⟨fun m hm => ⟨_, List.mem_append_right _ List.mem_cons_self, hm,
      Memoization.recent_self _ _, g, hg, rfl⟩, htoken.trans hspent,
      hcount.trans hspent⟩
  · exact h.onError (grows_countMessages s i)
      { token := h.token, messages := h.messages, tokensPast := h.tokensPast
        answersPast := h.answersPast, tokenOf := h.tokenOf }
      htoken hcount index _

/-- Whatever happens, what is kept and returned comes from the service. -/
theorem Safe.step
    (h : Safe config s) (hstep : Step config s s') :
    Safe config s' := by
  cases hstep with
  | wait t ht =>
      exact
        { token := h.token, messages := h.messages
          tokensPast := fun g hg => (h.tokensPast g hg).trans ht
          answersPast := fun a ha => (h.answersPast a ha).trans ht
          tokenOf := h.tokenOf, phase := h.phase }
  | evictToken =>
      exact { h with token := Memo.backed_of_none rfl, phase := h.phase }
  | evictMessages =>
      exact { h with messages := Memo.backed_of_none rfl, phase := h.phase }
  | @refuse i index hphase =>
      obtain ⟨htoken, hmessages⟩ := hphase ▸ h.phase i
      refine h.goTo ⟨fun m hm => absurd hm (Option.not_mem_none m), ?_, ?_⟩
      · omega
      · omega
  | @find i index messages hphase hread =>
      obtain ⟨htoken, hmessages⟩ := hphase ▸ h.phase i
      obtain ⟨kept, ⟨a, ha, rfl, rfl⟩, hfresh⟩ := h.messages.read hread
      refine h.goTo ⟨fun m hm => ⟨a, ha, hm, ?_, h.tokenOf a ha⟩, ?_, ?_⟩
      · exact ⟨h.answersPast a ha, Or.inr hfresh⟩
      · omega
      · omega
  | @miss i index hphase hread =>
      obtain ⟨htoken, hmessages⟩ := hphase ▸ h.phase i
      exact h.goTo ⟨Nat.zero_le _, Nat.le_of_eq htoken, Nat.le_of_eq hmessages⟩
  | @findToken i index attempt token hphase hread =>
      obtain ⟨hsince, htoken, hmessages⟩ := hphase ▸ h.phase i
      obtain ⟨kept, ⟨g, hg, rfl, hversion, rfl⟩, hfresh⟩ := h.token.read hread
      refine h.goTo ⟨⟨g, hg, rfl, hversion ▸ hsince, ?_⟩,
        htoken.trans (Nat.le_succ _), hmessages⟩
      exact ⟨h.tokensPast g hg, Or.inr hfresh⟩
  | @missToken i index attempt hphase hread =>
      obtain ⟨hsince, hrequests⟩ := hphase ▸ h.phase i
      exact h.goTo ⟨hsince, hrequests⟩
  | @getToken i index attempt version hphase reply =>
      exact h.onToken hphase reply
  | @getMessages i index attempt token got hphase reply =>
      exact h.onMessages hphase reply

omit [DecidableEq ι] in
/-- Nothing is kept before the calls. -/
theorem safe_startCalls
    (config : MessageConfig) (now : Datetime) :
    Safe config (startCalls ι now) where
  token := Memo.backed_of_none rfl
  messages := Memo.backed_of_none rfl
  tokensPast := fun _ hg => absurd hg List.not_mem_nil
  answersPast := fun _ ha => absurd ha List.not_mem_nil
  tokenOf := fun _ ha => absurd ha List.not_mem_nil
  phase := fun _ => ⟨rfl, rfl⟩

end Invariant

section Uninterrupted

variable {config : MessageConfig} {s s' s1 : Calls ι} {i : ι} {index : String}
variable {attempt : Try}

/-- Where a try of a call leads to, by what it gives. -/
def Ends (config : MessageConfig) (s s1 : Calls ι) (i : ι) (index : String)
    (attempt : Try) : Except ServiceError Messages → Prop
  | .error e => ReflTransGen (Step config) s (s1.onError i index attempt e)
  | .ok messages =>
      ∃ s', ReflTransGen (Step config) s s' ∧
        s'.phase i = .returned index (messages.get index) s1.now ∧
        s'.toCaches =
          { s1.toCaches with
            messages :=
              s1.messages.keep s1.messages.version messages s1.now }

theorem Ends.of_run
    {result : Except ServiceError Messages}
    (h : Ends config s' s1 i index attempt result)
    (hrun : ReflTransGen (Step config) s s') :
    Ends config s s1 i index attempt result := by
  cases result with
  | error e =>
      exact hrun.trans h
  | ok messages =>
      obtain ⟨s2, hrest, hend⟩ := h
      exact ⟨s2, hrun.trans hrest, hend⟩

/-- A call that has a token ends with the answer of the service. -/
theorem ends_of_calling
    {token : String} {got : Datetime}
    (hphase : s.phase i = .calling index attempt token got)
    (reply : Reply MessagesContent) :
    Ends config s (s.countMessages i) i index attempt (messagesOf reply) := by
  have hstep : Step config s (s.onMessages i index attempt token reply) :=
    .getMessages hphase reply
  unfold Calls.onMessages at hstep
  cases hanswer : messagesOf reply with
  | error e =>
      rw [hanswer] at hstep
      exact ReflTransGen.single hstep
  | ok messages =>
      rw [hanswer] at hstep
      exact ⟨_, ReflTransGen.single hstep, goTo_phase_self .., rfl⟩

/-- A try that nothing interrupts is made of the steps of its call. -/
theorem callWebservice_run
    (config : MessageConfig) (hphase : s.phase i = .reading index attempt)
    (tokenReply : Reply TokenContent) (messagesReply : Reply MessagesContent) :
    ∃ s1 : Calls ι, s1.now = s.now ∧
      s1.toCaches = (callWebservice config s.now tokenReply messagesReply
        s.toCaches).2 ∧
      Ends config s s1 i index attempt (callWebservice config s.now tokenReply
        messagesReply s.toCaches).1 := by
  cases hread : s.token.read config.timeoutToken s.now with
  | some token =>
      simp only [callWebservice, getAccessToken, hread]
      refine ⟨(s.goTo i (.calling index attempt token s.now)).countMessages i,
        rfl, rfl, ?_⟩
      exact (ends_of_calling (goTo_phase_self ..) messagesReply).of_run
        (ReflTransGen.single (.findToken hphase hread))
  | none =>
      have hask : ReflTransGen (Step config) s
          (s.goTo i (.asking index attempt s.token.version)) :=
        ReflTransGen.single (.missToken hphase hread)
      have hgot : Step config (s.goTo i (.asking index attempt s.token.version))
          ((s.goTo i (.asking index attempt s.token.version)).onToken i index
            attempt s.token.version tokenReply) :=
        .getToken (goTo_phase_self ..) tokenReply
      cases haccess : accessTokenOf tokenReply with
      | error e =>
          simp only [Calls.onToken, haccess] at hgot
          simp only [callWebservice, getAccessToken, hread, haccess]
          exact ⟨(s.goTo i (.asking index attempt s.token.version)).countToken i,
            rfl, rfl, hask.tail hgot⟩
      | ok token =>
          cases token with
          | none =>
              simp only [Calls.onToken, haccess] at hgot
              simp only [callWebservice, getAccessToken, hread, haccess]
              exact ⟨(s.goTo i (.asking index attempt s.token.version)).countToken
                i, rfl, rfl, hask.tail hgot⟩
          | some token =>
              have hcalling : ((s.goTo i (.asking index attempt
                  s.token.version)).onToken i index attempt s.token.version
                  tokenReply).phase i = .calling index attempt token s.now := by
                simp only [Calls.onToken, haccess]
                exact goTo_phase_self ..
              have hends := (ends_of_calling hcalling messagesReply).of_run
                (hask.tail hgot)
              simp only [callWebservice, getAccessToken, hread, haccess]
              refine ⟨_, ?_, ?_, hends⟩
              · simp only [Calls.onToken, haccess]
                rfl
              · simp only [Calls.onToken, haccess]
                rfl

/-- A call may return a message, and leave the caches that come with it. -/
def Returns (config : MessageConfig) (s : Calls ι) (i : ι) (index : String)
    (t : Datetime) (returned : Option String × Caches) : Prop :=
  ∃ s', ReflTransGen (Step config) s s' ∧
    s'.phase i = .returned index returned.1 t ∧ s'.toCaches = returned.2

theorem Returns.of_run
    {t : Datetime} {returned : Option String × Caches}
    (h : Returns config s' i index t returned)
    (hrun : ReflTransGen (Step config) s s') :
    Returns config s i index t returned := by
  obtain ⟨s2, hrest, hend⟩ := h
  exact ⟨s2, hrun.trans hrest, hend⟩

/-- The message of a cause, and what is kept, after the last try. -/
def answer (index : String) (now : Datetime) (caches : Caches) :
    Except ServiceError Messages → Option String × Caches
  | .error _ => (none, caches)
  | .ok messages =>
      (messages.get index,
        { caches with
          messages :=
            caches.messages.keep caches.messages.version messages now })

/-- A try is the last one unless it is the first and the token is refused. -/
theorem Ends.returns
    {result : Except ServiceError Messages}
    (h : Ends config s s1 i index attempt result)
    (hlast : attempt = .first → result ≠ .error .unauthorizedOnSubService) :
    Returns config s i index s1.now (answer index s1.now s1.toCaches result) := by
  cases result with
  | ok messages =>
      exact h
  | error e =>
      have herror : s1.onError i index attempt e =
          s1.goTo i (.returned index none s1.now) := by
        unfold Calls.onError
        split
        · exact absurd rfl (hlast rfl)
        · rfl
      refine ⟨s1.goTo i (.returned index none s1.now), ?_, goTo_phase_self ..,
        rfl⟩
      rw [← herror]
      exact h

section Equations

variable {now : Datetime} {configured breakerOpen : Bool} {replies : Replies}
variable {caches caches1 caches2 : Caches} {result : Except ServiceError Messages}

omit [DecidableEq ι] in
theorem getMessage_once
    (hasks : ¬(!configured || breakerOpen) = true)
    (hread : caches.messages.read config.cacheTimeout now = none)
    (hcalled : callWebservice config now replies.token replies.messages caches =
      (result, caches1))
    (hne : result ≠ .error .unauthorizedOnSubService) :
    getMessage config now configured breakerOpen replies index caches =
      answer index now caches1 result := by
  rw [getMessage, if_neg hasks]
  simp only [callWebserviceSafer, hread, hcalled]
  rcases result with e | messages
  · cases e <;> first | rfl | exact absurd rfl hne
  · rfl

omit [DecidableEq ι] in
/-- A token that is refused is forgotten, and another one is asked for. -/
theorem getMessage_again
    (hasks : ¬(!configured || breakerOpen) = true)
    (hread : caches.messages.read config.cacheTimeout now = none)
    (hcalled : callWebservice config now replies.token replies.messages caches =
      (.error .unauthorizedOnSubService, caches1))
    (hagain : callWebservice config now replies.tokenAgain replies.messagesAgain
      { caches1 with token := caches1.token.forget } = (result, caches2)) :
    getMessage config now configured breakerOpen replies index caches =
      answer index now caches2 result := by
  rw [getMessage, if_neg hasks]
  simp only [callWebserviceSafer, hread, hcalled, hagain]
  cases result <;> rfl

end Equations

/-- A call that nothing interrupts is made of the steps of that call. -/
theorem getMessage_run
    (hphase : s.phase i = .ready) (configured breakerOpen : Bool)
    (replies : Replies) (index : String) :
    Returns config s i index s.now (getMessage config s.now configured
      breakerOpen replies index s.toCaches) := by
  by_cases hasks : (!configured || breakerOpen) = true
  · rw [getMessage, if_pos hasks]
    exact ⟨_, ReflTransGen.single (.refuse index hphase), goTo_phase_self .., rfl⟩
  cases hread : s.messages.read config.cacheTimeout s.now with
  | some messages =>
      rw [getMessage, if_neg hasks]
      simp only [callWebserviceSafer, hread]
      exact ⟨_, ReflTransGen.single (.find index hphase hread),
        goTo_phase_self .., rfl⟩
  | none =>
      have hmiss : ReflTransGen (Step config) s
          (s.goTo i (.reading index .first)) :=
        ReflTransGen.single (.miss index hphase hread)
      obtain ⟨s1, hnow1, hcaches1, hends1⟩ := callWebservice_run config
        (goTo_phase_self s i (.reading index .first)) replies.token
        replies.messages
      obtain ⟨result, caches, hcalled⟩ : ∃ result caches, callWebservice config
          s.now replies.token replies.messages s.toCaches = (result, caches) :=
        ⟨_, _, rfl⟩
      rw [goTo_now, goTo_toCaches, hcalled] at hcaches1 hends1
      replace hcaches1 : s1.toCaches = caches := hcaches1
      by_cases hrefused : result = .error .unauthorizedOnSubService
      · subst hrefused
        have hphase1 : (s1.onError i index .first
            .unauthorizedOnSubService).phase i =
            .reading index (.second (s1.token.version + 1)) :=
          goTo_phase_self ..
        obtain ⟨s2, hnow2, hcaches2, hends2⟩ := callWebservice_run config hphase1
          replies.tokenAgain replies.messagesAgain
        have hforgotten : (s1.onError i index .first
            .unauthorizedOnSubService).toCaches =
            { caches with token := caches.token.forget } := by
          rw [← hcaches1]
          rfl
        obtain ⟨result, caches', hagain⟩ : ∃ result caches', callWebservice config
            s.now replies.tokenAgain replies.messagesAgain
            { caches with token := caches.token.forget } = (result, caches') :=
          ⟨_, _, rfl⟩
        have hnow : (s1.onError i index .first .unauthorizedOnSubService).now =
            s.now :=
          hnow1
        rw [hnow, hforgotten, hagain] at hcaches2 hends2
        rw [getMessage_again hasks hread hcalled hagain]
        have hreturns := ((hends2.of_run hends1).returns
          (fun hfirst => by cases hfirst)).of_run hmiss
        rw [hnow2, hnow, hcaches2] at hreturns
        exact hreturns
      · rw [getMessage_once hasks hread hcalled hrefused]
        have hreturns := (hends1.of_run hmiss).returns (fun _ => hrefused)
        rw [hnow1, hcaches1, goTo_now] at hreturns
        exact hreturns

omit [DecidableEq ι] in
/-- A phase tells that no call has made more than two requests of a kind. -/
theorem PhaseSafe.requests
    {phase : Phase} (h : PhaseSafe config s i phase) :
    s.tokenRequests i ≤ 2 ∧ s.messagesRequests i ≤ 2 := by
  have hspent : ∀ attempt : Try, attempt.spent ≤ 1 := by
    intro attempt
    cases attempt <;> simp [Try.spent]
  cases phase with
  | ready =>
      obtain ⟨htoken, hmessages⟩ := h
      omega
  | reading index attempt =>
      obtain ⟨-, htoken, hmessages⟩ := h
      have := hspent attempt
      omega
  | asking index attempt version =>
      obtain ⟨-, htoken, hmessages⟩ := h
      have := hspent attempt
      omega
  | calling index attempt token got =>
      obtain ⟨-, htoken, hmessages⟩ := h
      have := hspent attempt
      omega
  | returned index message t =>
      exact h.2

/--
In every run, a message that a call returns is one that the service has given for a
token of its own, at most the time of the cache before.  A call that was refused
asks again only with a token that was looked for after the refused one was
forgotten, and it makes at most two requests of each kind.  A call that has not
started may go on uninterrupted, and then returns as `getMessage` does.
-/
theorem cause_messages
    (config : MessageConfig) {now : Datetime}
    (hrun : ReflTransGen (Step config) (startCalls ι now) s) (i : ι) :
    (∀ index message t, s.phase i = .returned index (some message) t →
      Answered config s.tokens s.answers index message t) ∧
    (∀ index version token got,
      s.phase i = .calling index (.second version) token got →
        Given config s.tokens (.second version) token got) ∧
    (s.tokenRequests i ≤ 2 ∧ s.messagesRequests i ≤ 2) ∧
    (s.phase i = .ready → ∀ configured breakerOpen replies index,
      Returns config s i index s.now (getMessage config s.now configured
        breakerOpen replies index s.toCaches)) := by
  have hsafe : Safe config s := by
    induction hrun with
    | refl => exact safe_startCalls config now
    | tail hrun hstep ih => exact ih.step hstep
  have hi := hsafe.phase i
  refine ⟨?_, ?_, hi.requests, ?_⟩
  · intro index message t hphase
    rw [hphase] at hi
    exact hi.1 message rfl
  · intro index version token got hphase
    rw [hphase] at hi
    exact hi.1
  · intro hphase configured breakerOpen replies index
    exact getMessage_run hphase configured breakerOpen replies index

end Uninterrupted

end Steps

namespace Sample

/-- The first token is refused, and another one is asked for. -/
def refusedOnce : Replies where
  token := .answered 200 (.object (some "old"))
  messages := .answered 401 .malformed
  tokenAgain := .answered 200 (.object (some "new"))
  messagesAgain :=
    .answered 200
      (.causes [{ id := some "32", labelExt := some (some "Affluence") }])

end Sample

/-- A call that is refused once returns the message of the second answer. -/
theorem cause_messages_refusedOnce :
    ∃ s : Calls Unit,
      s.phase () = .returned "32" (some "Affluence") 0 ∧
      Answered { timeoutToken := 3600, cacheTimeout := 3600 } s.tokens s.answers
        "32" "Affluence" 0 ∧
      s.tokenRequests () ≤ 2 := by
  obtain ⟨s, hrun, hphase, -⟩ :=
    (cause_messages { timeoutToken := 3600, cacheTimeout := 3600 }
      (ReflTransGen.refl (a := startCalls Unit 0)) ()).2.2.2 rfl true false
        Sample.refusedOnce "32"
  have hreturned : s.phase () = .returned "32" (some "Affluence") 0 := hphase
  obtain ⟨hanswered, -, ⟨htoken, -⟩, -⟩ := cause_messages _ hrun ()
  exact ⟨s, hreturned, hanswered _ _ _ hreturned, htoken⟩

end Cots
end Kirin
