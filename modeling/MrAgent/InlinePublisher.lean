import MrAgent.InlineGate
import MrAgent.InterruptibleProgram
import MrAgent.RepairPlanner

namespace MrAgent

open Interruptible

/-!
# Publishing inline suggestions

`publish_inline_suggestions_async` puts a marker into the body of every
suggestion of a batch and posts the bodies one by one. Before it posts, and
after every answer it does not trust, it takes the thread of a note with the
marker for its own. The calls of GitLab are the calls of a program that may
stop between any two of them; the storage and the summary are one call each.
-/

/-! ## Payloads -/

/-- A suggestion that was selected for publication. -/
structure InlineSuggestion where
  relevantFile : String
  linesStart : Nat
  linesEnd : Nat
  existingCode : String
  improvedCode : String
  content : String
deriving DecidableEq

/-- What the publisher reads from the merge request and the settings. -/
structure InlineEnv where
  project : String
  mrIid : String
  /-- `render_inline_body` of a suggestion and its id. -/
  renderInlineBody : InlineSuggestion → String → String
  /-- `render_fallback_body` up to the marker. -/
  renderFallbackBody : InlineSuggestion → String
  fallbackEnabled : Bool
  retryLimit : Nat

/-- `make_suggestion_id`. -/
def makeSuggestionId (index : Nat) : String :=
  let digits := toString index
  "SUG-" ++ String.ofList (List.replicate (3 - digits.length) '0') ++ digits

/-- `make_publish_marker`. -/
def makePublishMarker (runId suggestionId : String) : String :=
  "pr-agent-suggestion:" ++ runId ++ ":" ++ suggestionId

/-- `_run_id`. -/
def InlineEnv.runId (env : InlineEnv) (commitSha : String) : String :=
  env.project ++ ":" ++ env.mrIid ++ ":" ++ String.ofList (commitSha.toList.take 8)

/-- One payload of a publication. -/
structure InlinePayload where
  suggestionId : String
  suggestion : InlineSuggestion
  body : String
  fallbackBody : String
  marker : String
deriving DecidableEq

/-- The payload at a position of the batch. -/
def InlineEnv.payload
    (env : InlineEnv)
    (runId : String)
    (suggestion : InlineSuggestion)
    (index : Nat) : InlinePayload :=
  let id := makeSuggestionId index
  let marker := makePublishMarker runId id
  { suggestionId := id
    suggestion := suggestion
    body := env.renderInlineBody suggestion id ++ "\n\n<!-- " ++ marker ++ " -->"
    fallbackBody := env.renderFallbackBody suggestion ++ "\n\n<!-- " ++ marker ++ " -->"
    marker := marker }

/-- One call of `publish_inline_suggestions_async`: the head commit and the selected batch. -/
structure InlineRequest where
  commitSha : String
  selected : List InlineSuggestion
deriving DecidableEq

/-- `payloads`: the batch is numbered from one. -/
def InlineEnv.payloads (env : InlineEnv) (request : InlineRequest) : List InlinePayload :=
  (request.selected.zipIdx 1).map fun item =>
    env.payload (env.runId request.commitSha) item.1 item.2

/-- `str.replace` on characters; `skip` characters belong to the last match. -/
def replaceAll (old new : List Char) : Nat → List Char → List Char
  | _, [] => []
  | skip + 1, _ :: rest => replaceAll old new skip rest
  | 0, c :: rest =>
    if old <+: c :: rest then new ++ replaceAll old new (old.length - 1) rest
    else c :: replaceAll old new 0 rest

namespace InlinePayload

/-- The body that is posted on the diff: the suggestion block gets its line range. -/
def native (payload : InlinePayload) : String :=
  let range := payload.suggestion.linesEnd - payload.suggestion.linesStart
  String.ofList (replaceAll "```suggestion".toList
    ("```suggestion:-0+" ++ toString range).toList 0 payload.body.toList)

/-- The comment that is posted instead: `limit_output_characters` cuts it. -/
def fallback (payload : InlinePayload) : String :=
  if 65000 < payload.fallbackBody.length then
    String.ofList (payload.fallbackBody.toList.take 65000) ++ "..."
  else payload.fallbackBody

/-- The same file, line range and code. -/
def identical (first second : InlinePayload) : Prop :=
  first.suggestion.relevantFile = second.suggestion.relevantFile ∧
    first.suggestion.linesStart = second.suggestion.linesStart ∧
    first.suggestion.linesEnd = second.suggestion.linesEnd ∧
    first.suggestion.existingCode = second.suggestion.existingCode ∧
    first.suggestion.improvedCode = second.suggestion.improvedCode

end InlinePayload

/-! ## The merge request -/

/-- A note of a discussion. -/
structure MrNote where
  id : Nat
  body : String
deriving DecidableEq

/-- A discussion; a comment outside the diff is a discussion of one note. -/
structure MrThread where
  id : Nat
  notes : List MrNote
deriving DecidableEq

/-- Some note contains the marker. -/
def MrThread.carries (thread : MrThread) (marker : String) : Bool :=
  thread.notes.any fun note => containsText note.body marker

/-- The reasons an item of a batch was not posted on the diff. -/
inductive InlineSkip where
  | none
  | nativeInlineRejected
  | fileNotInDiff
  | lineOutOfRange
  | exception
deriving DecidableEq

/-- The result for one item. -/
structure InlineResult where
  status : PublishStatus
  discussionId : Option Nat
  noteId : Option Nat
  skipReason : InlineSkip
  attemptCount : Nat
deriving DecidableEq

/-- A payload that was posted, in the discussion and note it opened. -/
structure InlinePost where
  discussionId : Nat
  noteId : Nat
  payload : InlinePayload
deriving DecidableEq

/--
The discussions of the merge request and the reports of the publisher. `posts`
says who opened a discussion, `missed` which present markers a lookup missed.
-/
structure InlineWorld where
  threads : List MrThread
  nextId : Nat
  reports : List (InlinePayload × InlineResult)
  posts : List InlinePost
  missed : List String
deriving DecidableEq

/-! ## Calls -/

/-- What looking up the file and the line in the diff ends with. -/
inductive LocateAnswer where
  | found
  | fileNotInDiff
  | lineOutOfRange
  | raises
deriving DecidableEq

/-- What posting ends with; a lost answer has posted all the same. -/
inductive PostAnswer where
  | accepted
  | lost
  | refused
deriving DecidableEq

/-- The calls of the publisher. -/
inductive InlineCall where
  | findDiscussion (marker : String)
  | findNote (marker : String)
  | locate
  | createDiscussion (payload : InlinePayload)
  | refresh
  | createNote (payload : InlinePayload)
  | report (payload : InlinePayload) (result : InlineResult)

namespace InlineCall

abbrev Reply : InlineCall → Type
  | findDiscussion _ => Option MrThread
  | findNote _ => Option Nat
  | locate => LocateAnswer
  | createDiscussion _ => Option MrThread
  | refresh => Bool
  | createNote _ => Option Nat
  | report _ _ => Unit

abbrev Answer : InlineCall → Type
  | findDiscussion _ | findNote _ | refresh => Bool
  | locate => LocateAnswer
  | createDiscussion _ | createNote _ => PostAnswer
  | report _ _ => Unit

end InlineCall

namespace InlineWorld

/-- A payload opens a discussion with the given text. -/
def post (w : InlineWorld) (payload : InlinePayload) (text : String) : InlineWorld :=
  { w with
    threads := w.threads ++ [⟨w.nextId, [⟨w.nextId, text⟩]⟩]
    nextId := w.nextId + 1
    posts := w.posts ++ [⟨w.nextId, w.nextId, payload⟩] }

/-- The first discussion with the marker. -/
def carrier (w : InlineWorld) (marker : String) : Option MrThread :=
  w.threads.find? (·.carries marker)

/-- One call; GitLab lists notes from the newest on. -/
def perform (_ : Unit) (call : InlineCall) (answer : call.Answer) (w : InlineWorld) :
    InlineWorld × call.Reply :=
  match call, answer with
  | .findDiscussion marker, true => (w, w.carrier marker)
  | .findDiscussion marker, false =>
    ({ w with missed := if (w.carrier marker).isSome then w.missed ++ [marker] else w.missed },
      none)
  | .findNote marker, true =>
    (w, ((w.threads.flatMap (·.notes)).reverse.find? fun note =>
      containsText note.body marker).map (·.id))
  | .findNote _, false => (w, none)
  | .locate, located => (w, located)
  | .createDiscussion payload, .accepted =>
    (w.post payload payload.native, some ⟨w.nextId, [⟨w.nextId, payload.native⟩]⟩)
  | .createDiscussion payload, .lost => (w.post payload payload.native, none)
  | .createDiscussion _, .refused => (w, none)
  | .refresh, refreshed => (w, refreshed)
  | .createNote payload, .accepted => (w.post payload payload.fallback, some w.nextId)
  | .createNote payload, .lost => (w.post payload payload.fallback, none)
  | .createNote _, .refused => (w, none)
  | .report payload result, () => ({ w with reports := w.reports ++ [(payload, result)] }, ())

end InlineWorld

/-! ## The program -/

/-- A program of the publisher. -/
abbrev InlineProgram (α : Type) := Program InlineCall.Reply α

/-- One call. -/
def inlineAsk (call : InlineCall) : InlineProgram call.Reply :=
  Program.perform call

/-- `_published_inline_result` for a discussion that exists. -/
def publishedInlineResult (thread : MrThread) (attempts : Nat) : InlineResult where
  status := .published
  discussionId := some thread.id
  noteId := thread.notes.head?.map (·.id)
  skipReason := .none
  attemptCount := attempts

/-- `base_result` with the note of a comment. -/
def fallbackResult (note : Nat) (attempts : Nat) : InlineResult where
  status := .fallbackPublished
  discussionId := none
  noteId := some note
  skipReason := .nativeInlineRejected
  attemptCount := attempts

/-- `base_result` of an item that is not published. -/
def failedResult (reason : InlineSkip) (attempts : Nat) : InlineResult where
  status := .failed
  discussionId := none
  noteId := none
  skipReason := reason
  attemptCount := attempts

/-- How the attempts on the diff end. -/
inductive AttemptEnd where
  | ended (result : InlineResult)
  | gaveUp (reason : InlineSkip) (attempts : Nat)
deriving DecidableEq

/-- The lookup after an attempt that has not returned a discussion. -/
def reconcileAttempt
    (payload : InlinePayload)
    (attempt : Nat)
    (reason : InlineSkip) : InlineProgram AttemptEnd := do
  match ← inlineAsk (.findDiscussion payload.marker) with
  | some thread => pure (.ended (publishedInlineResult thread attempt))
  | none => pure (.gaveUp reason attempt)

/-- One attempt of `_publish_one_inline_suggestion` on the diff. -/
def attemptOnce
    (payload : InlinePayload)
    (attempt : Nat)
    (reason : InlineSkip) : InlineProgram AttemptEnd := do
  match ← inlineAsk .locate with
  | .raises => pure (.ended (failedResult .exception 0))
  | .fileNotInDiff => reconcileAttempt payload attempt .fileNotInDiff
  | .lineOutOfRange => reconcileAttempt payload attempt .lineOutOfRange
  | .found =>
    match ← inlineAsk (.createDiscussion payload) with
    | some thread => pure (.ended (publishedInlineResult thread attempt))
    | none => reconcileAttempt payload attempt reason

/-- All attempts; before each further one the diff is fetched again. -/
def attemptNative
    (payload : InlinePayload)
    (attempt : Nat)
    (reason : InlineSkip) : Nat → InlineProgram AttemptEnd
  | 0 => attemptOnce payload attempt reason
  | retries + 1 => do
    match ← attemptOnce payload attempt reason with
    | .ended result => pure (.ended result)
    | .gaveUp reason attempts =>
      if !(← inlineAsk .refresh) then pure (.gaveUp reason attempts)
      else
        match ← inlineAsk (.findDiscussion payload.marker) with
        | some thread => pure (.ended (publishedInlineResult thread attempts))
        | none => attemptNative payload (attempts + 1) reason retries

/-- The comment that is posted when the diff refuses the suggestion. -/
def publishFallback
    (payload : InlinePayload)
    (reason : InlineSkip)
    (attempts : Nat) : InlineProgram InlineResult := do
  match ← inlineAsk (.findNote payload.marker) with
  | some note => pure (fallbackResult note attempts)
  | none =>
    match ← inlineAsk (.createNote payload) with
    | some note => pure (fallbackResult note attempts)
    | none =>
      match ← inlineAsk (.findNote payload.marker) with
      | some note => pure (fallbackResult note attempts)
      | none => pure (failedResult reason attempts)

/-- A comment may stand in for the suggestion. -/
def InlineEnv.fallbackAllowed (env : InlineEnv) (payload : InlinePayload) : Bool :=
  env.fallbackEnabled && payload.fallbackBody ≠ "" && payload.marker ≠ ""

/-- The attempts and what follows them. -/
def publishFresh (env : InlineEnv) (payload : InlinePayload) : InlineProgram InlineResult := do
  match ← attemptNative payload 1 .nativeInlineRejected (min 1 env.retryLimit) with
  | .ended result => pure result
  | .gaveUp reason attempts =>
    if env.fallbackAllowed payload then publishFallback payload reason attempts
    else pure (failedResult reason attempts)

/-- `_publish_one_inline_suggestion`. -/
def publishOneInlineSuggestion
    (env : InlineEnv)
    (payload : InlinePayload) : InlineProgram InlineResult := do
  match ← inlineAsk (.findDiscussion payload.marker) with
  | some thread => pure (publishedInlineResult thread 0)
  | none =>
    if env.fallbackAllowed payload then
      match ← inlineAsk (.findNote payload.marker) with
      | some note => pure (fallbackResult note 0)
      | none => publishFresh env payload
    else publishFresh env payload

/-- `publish_inline_suggestions`: the results in the order of the payloads. -/
def publishInlineSuggestions (env : InlineEnv) :
    List InlinePayload → InlineProgram (List (InlinePayload × InlineResult))
  | [] => pure []
  | payload :: rest => do
    let result ← publishOneInlineSuggestion env payload
    let results ← publishInlineSuggestions env rest
    pure ((payload, result) :: results)

/-- The loop that stores and reports the results. -/
def reportResults : List (InlinePayload × InlineResult) → InlineProgram Unit
  | [] => pure ()
  | (payload, result) :: rest => do
    inlineAsk (.report payload result)
    reportResults rest

/-- `publish_inline_suggestions_async` from the selected batch on. -/
def publishInlineSuggestionsAsync
    (env : InlineEnv)
    (request : InlineRequest) : InlineProgram Unit := do
  let results ← publishInlineSuggestions env (env.payloads request)
  reportResults results

/-! ## Runs -/

/-- A call whose payloads belong to the given ones. -/
structure InlineInput (env : InlineEnv) (known : InlinePayload → Prop) where
  request : InlineRequest
  within : ∀ payload ∈ env.payloads request, known payload

/-- Someone else comments, in a discussion or in a new one. -/
structure MrComment where
  thread : Option Nat
  body : String
deriving DecidableEq

/-- The merge request after a comment. -/
def MrComment.apply (comment : MrComment) (w : InlineWorld) : InlineWorld :=
  match comment.thread with
  | some id =>
    { w with
      threads := w.threads.map fun thread =>
        if thread.id = id then
          { thread with notes := thread.notes ++ [⟨w.nextId, comment.body⟩] }
        else thread
      nextId := w.nextId + 1 }
  | none =>
    { w with
      threads := w.threads ++ [⟨w.nextId, [⟨w.nextId, comment.body⟩]⟩]
      nextId := w.nextId + 1 }

/-- The text contains no marker of a known payload. -/
def Unmarked (known : InlinePayload → Prop) (text : String) : Prop :=
  ∀ payload, known payload → containsText text payload.marker = false

/-- Calls of the publisher that may stop anywhere, and comments of others. GitLab answers as it
likes; a comment of someone else repeats no marker. -/
def inlineMachine (env : InlineEnv) (known : InlinePayload → Prop) :
    Machine Unit InlineCall.Reply InlineCall.Answer InlineWorld (InlineInput env known) Unit
      MrComment where
  program := fun _ input => publishInlineSuggestionsAsync env input.request
  perform := InlineWorld.perform
  permits := fun _ _ _ _ _ => True
  change := MrComment.apply
  allows := fun comment _ _ => Unmarked known comment.body

end MrAgent
