import Mathlib
import MrAgent.CardFrame

namespace MrAgent

open TransitionSystem

/-!
# The latest repair card of a merge request

Two keys per merge request point to the newest repair card and hold the number
of its pipeline. Only `SAVE_TRIAGE_CARD_LUA` writes them, both at once, and
only for a newer pipeline. A ghost list records the saves that took place.
-/

/-- The broker and the cards saved so far for one merge request, with their pipelines. -/
structure SaveRun where
  broker : Broker
  saved : List (CardId × Nat)

/-- What a call saves for the merge request. -/
def Broker.savedBy (s : Broker) (mr : MrKey) : Op → List (CardId × Nat)
  | .card (.save other cardId pipelineId card) =>
    if other = mr ∧ (s.saveTriageCard other cardId pipelineId card).2 = 1 then
      [(cardId, pipelineId)]
    else []
  | _ => []

def SaveRun.step (mr : MrKey) (r : SaveRun) (op : Op) : SaveRun where
  broker := r.broker.step op
  saved := r.saved ++ r.broker.savedBy mr op

/-- The call does not expire a latest-card key of the merge request. -/
def Op.sparesLatest (mr : MrKey) : Op → Prop
  | .expiry (.latestCard scope) => scope ≠ some mr
  | .expiry (.latestPipeline scope) => scope ≠ some mr
  | _ => True

/-- The pipelines for which a card was saved. -/
def SaveRun.pipelines (r : SaveRun) : Set Nat :=
  {pipeline | ∃ cardId, (cardId, pipeline) ∈ r.saved}

/-- Nothing was saved for the merge request yet. -/
structure SaveRun.Fresh (mr : MrKey) (r : SaveRun) : Prop where
  saved : r.saved = []
  latestCard : r.broker.latestCard (some mr) = none
  latestPipeline : r.broker.latestPipeline (some mr) = none

/-- Both keys belong to one save, and every other save was for an older pipeline. -/
structure SaveRun.Newest (mr : MrKey) (r : SaveRun) (cardId : CardId) (pipeline : Nat) : Prop where
  latestCard : r.broker.latestCard (some mr) = some cardId
  latestPipeline : r.broker.latestPipeline (some mr) = some pipeline
  member : (cardId, pipeline) ∈ r.saved
  bound : ∀ entry ∈ r.saved, entry = (cardId, pipeline) ∨ entry.2 < pipeline

/-- The invariant of the two keys. -/
def SaveRun.Latest (mr : MrKey) (r : SaveRun) : Prop :=
  r.Fresh mr ∨ ∃ cardId pipeline, r.Newest mr cardId pipeline

namespace Broker

variable (s : Broker)

/-- The pipeline a new card has to exceed. -/
def currentPipeline (mr : MrKey) : Nat :=
  (s.latestPipeline (some mr) <|>
    (s.latestCard (some mr)).bind fun latest => (s.cards latest).effectivePipelineId).getD 0

theorem saveTriageCard_cases
    (mr : MrKey) (cardId : CardId) (pipelineId : Nat) (card : CardHash) :
    (((s.cards cardId).exists_ = true ∨ pipelineId ≤ s.currentPipeline mr) ∧
      (s.saveTriageCard mr cardId pipelineId card).1 = s ∧
      (s.saveTriageCard mr cardId pipelineId card).2 ≠ 1) ∨
      (s.currentPipeline mr < pipelineId ∧
        (s.saveTriageCard mr cardId pipelineId card).1.latestCard =
          Function.update s.latestCard (some mr) (some cardId) ∧
        (s.saveTriageCard mr cardId pipelineId card).1.latestPipeline =
          Function.update s.latestPipeline (some mr) (some pipelineId) ∧
        (s.saveTriageCard mr cardId pipelineId card).2 = 1) := by
  unfold saveTriageCard currentPipeline
  dsimp only
  split
  · rename_i stored
    exact Or.inl ⟨Or.inl stored, rfl, by simp⟩
  split
  · rename_i older
    exact Or.inl ⟨Or.inr older, rfl, by simp⟩
  · rename_i newer
    exact Or.inr ⟨Nat.lt_of_not_le newer, rfl, rfl, rfl⟩

theorem step_latest_of_unsaved
    {mr : MrKey} {op : Op}
    (spares : op.sparesLatest mr)
    (unsaved : s.savedBy mr op = []) :
    (s.step op).latestCard (some mr) = s.latestCard (some mr) ∧
      (s.step op).latestPipeline (some mr) = s.latestPipeline (some mr) := by
  by_cases moves : op.movesLatest = true
  case neg =>
    have kept := s.step_latestKept op (by simpa using moves)
    exact ⟨by rw [kept.latestCard], by rw [kept.latestPipeline]⟩
  cases op with
  | card op =>
      cases op with
      | save other cardId pipelineId card =>
          change (s.saveTriageCard other cardId pipelineId card).1.latestCard (some mr) = _ ∧
            (s.saveTriageCard other cardId pipelineId card).1.latestPipeline (some mr) = _
          rcases s.saveTriageCard_cases other cardId pipelineId card with
            ⟨_, same, _⟩ | ⟨_, pointer, number, accepted⟩
          · rw [same]
            exact ⟨rfl, rfl⟩
          · have different : other ≠ mr := by
              intro wrong
              simp [savedBy, wrong ▸ accepted, wrong] at unsaved
            have scopes : some mr ≠ some other := by
              intro wrong
              exact different (Option.some.inj wrong).symm
            rw [pointer, number, Function.update_of_ne scopes, Function.update_of_ne scopes]
            exact ⟨rfl, rfl⟩
      | _ => cases moves
  | expiry op =>
      cases op with
      | latestCard scope =>
          exact ⟨Function.update_of_ne (Ne.symm spares) _ _, rfl⟩
      | latestPipeline scope =>
          exact ⟨rfl, Function.update_of_ne (Ne.symm spares) _ _⟩
      | _ => cases moves
  | _ => cases moves

end Broker

namespace SaveRun

variable {mr : MrKey} {r : SaveRun}

theorem Newest.currentPipeline
    {cardId : CardId} {pipeline : Nat}
    (newest : r.Newest mr cardId pipeline) :
    r.broker.currentPipeline mr = pipeline := by
  simp [Broker.currentPipeline, newest.latestPipeline]

theorem Latest.bound
    (latest : r.Latest mr)
    {entry : CardId × Nat}
    (member : entry ∈ r.saved) :
    entry.2 ≤ r.broker.currentPipeline mr := by
  rcases latest with fresh | ⟨cardId, pipeline, newest⟩
  · rw [fresh.saved] at member
    cases member
  · rw [newest.currentPipeline]
    rcases newest.bound entry member with rfl | older
    · exact Nat.le_refl _
    · exact Nat.le_of_lt older

theorem Latest.step
    (op : Op)
    (latest : r.Latest mr)
    (spares : op.sparesLatest mr) :
    (r.step mr op).Latest mr := by
  by_cases unsaved : r.broker.savedBy mr op = []
  case pos =>
    obtain ⟨pointer, number⟩ := r.broker.step_latest_of_unsaved spares unsaved
    have sameSaves : (r.step mr op).saved = r.saved := by
      simp [SaveRun.step, unsaved]
    rcases latest with fresh | ⟨cardId, pipeline, newest⟩
    · exact Or.inl ⟨sameSaves.trans fresh.saved, pointer.trans fresh.latestCard,
        number.trans fresh.latestPipeline⟩
    · refine Or.inr ⟨cardId, pipeline, pointer.trans newest.latestCard,
        number.trans newest.latestPipeline, ?_, ?_⟩
      · rw [sameSaves]
        exact newest.member
      · rw [sameSaves]
        exact newest.bound
  -- What saves is an accepted save of this merge request, for a newer pipeline.
  obtain ⟨cardId, pipelineId, card, rfl, accepted⟩ : ∃ cardId pipelineId card,
      op = .card (.save mr cardId pipelineId card) ∧
        (r.broker.saveTriageCard mr cardId pipelineId card).2 = 1 := by
    unfold Broker.savedBy at unsaved
    split at unsaved
    · rename_i other cardId pipelineId card
      split at unsaved
      · rename_i both
        obtain ⟨rfl, accepted⟩ := both
        exact ⟨cardId, pipelineId, card, rfl, accepted⟩
      · exact absurd rfl unsaved
    · exact absurd rfl unsaved
  have saves : (r.step mr (.card (.save mr cardId pipelineId card))).saved =
      r.saved ++ [(cardId, pipelineId)] := by
    simp [SaveRun.step, Broker.savedBy, accepted]
  rcases r.broker.saveTriageCard_cases mr cardId pipelineId card with
    ⟨_, _, refused⟩ | ⟨newer, pointer, number, _⟩
  · exact absurd accepted refused
  · refine Or.inr ⟨cardId, pipelineId, ?_, ?_, ?_, ?_⟩
    · change (r.broker.saveTriageCard mr cardId pipelineId card).1.latestCard (some mr) = _
      rw [pointer, Function.update_self]
    · change (r.broker.saveTriageCard mr cardId pipelineId card).1.latestPipeline (some mr) = _
      rw [number, Function.update_self]
    · rw [saves]
      exact List.mem_append_right _ (List.mem_singleton_self _)
    · intro entry member
      rw [saves] at member
      rcases List.mem_append.mp member with old | new
      · exact Or.inr (Nat.lt_of_le_of_lt (latest.bound old) newer)
      · exact Or.inl (List.mem_singleton.mp new)

theorem Latest.latestPipeline_iff
    (latest : r.Latest mr)
    (pipeline : Nat) :
    r.broker.latestPipeline (some mr) = some pipeline ↔ IsGreatest r.pipelines pipeline := by
  rcases latest with fresh | ⟨cardId, newestPipeline, newest⟩
  · rw [fresh.latestPipeline]
    constructor
    · intro wrong
      cases wrong
    · rintro ⟨⟨cardId, member⟩, _⟩
      rw [fresh.saved] at member
      cases member
  · have greatest : IsGreatest r.pipelines newestPipeline := by
      refine ⟨⟨cardId, newest.member⟩, ?_⟩
      rintro other ⟨otherCard, member⟩
      rcases newest.bound _ member with same | older
      · rw [(Prod.mk.inj same).2]
      · exact Nat.le_of_lt older
    rw [newest.latestPipeline]
    constructor
    · intro same
      cases same
      exact greatest
    · intro also
      rw [greatest.unique also]

theorem Latest.latestCard_iff
    (latest : r.Latest mr)
    (cardId : CardId) :
    r.broker.latestCard (some mr) = some cardId ↔
      ∃ pipeline, IsGreatest r.pipelines pipeline ∧ (cardId, pipeline) ∈ r.saved := by
  have numbers := latest.latestPipeline_iff
  rcases latest with fresh | ⟨newestCard, newestPipeline, newest⟩
  · rw [fresh.latestCard]
    constructor
    · intro wrong
      cases wrong
    · rintro ⟨_, _, member⟩
      rw [fresh.saved] at member
      cases member
  · have greatest := (numbers newestPipeline).mp newest.latestPipeline
    rw [newest.latestCard]
    constructor
    · intro same
      cases same
      exact ⟨newestPipeline, greatest, newest.member⟩
    · rintro ⟨pipeline, also, member⟩
      obtain rfl := greatest.unique also
      rcases newest.bound _ member with same | older
      · rw [(Prod.mk.inj same).1]
      · exact absurd older (Nat.lt_irrefl _)

end SaveRun

/-- While the two keys do not expire they hold the greatest pipeline ever saved and the card saved
with it, and other saves change nothing. -/
theorem latest_repair_card_newest
    (mr : MrKey)
    {first last : SaveRun}
    (fresh : first.Fresh mr)
    (run : Reaches (SaveRun.step mr) (fun _ op => op.sparesLatest mr) first last) :
    (∀ pipeline, last.broker.latestPipeline (some mr) = some pipeline ↔
      IsGreatest last.pipelines pipeline) ∧
      (∀ cardId, last.broker.latestCard (some mr) = some cardId ↔
        ∃ pipeline, IsGreatest last.pipelines pipeline ∧ (cardId, pipeline) ∈ last.saved) ∧
      ∀ cardId pipelineId card,
        ((last.broker.cards cardId).exists_ = true ∨ ∃ saved ∈ last.pipelines, pipelineId ≤ saved) →
          (last.broker.saveTriageCard mr cardId pipelineId card).1 = last.broker := by
  have latest := run.invariant (SaveRun.Latest mr)
    (fun _ op latest spares => latest.step op spares) (Or.inl fresh)
  refine ⟨latest.latestPipeline_iff, latest.latestCard_iff, ?_⟩
  intro cardId pipelineId card either
  rcases last.broker.saveTriageCard_cases mr cardId pipelineId card with
    ⟨_, same, _⟩ | ⟨newer, _, _, accepted⟩
  · exact same
  · exfalso
    rcases either with stored | ⟨saved, ⟨savedCard, member⟩, notNewer⟩
    · simp [Broker.saveTriageCard, stored] at accepted
    · have bound := latest.bound member
      exact absurd (Nat.lt_of_lt_of_le newer notNewer) (Nat.not_lt_of_le bound)

namespace LatestSample

/-- Pipeline 11 is saved, an older webhook comes late, and pipeline 12 follows. -/
def webhooks : List Op :=
  [.card (.save Sample.mr "first" 11 Sample.card),
    .card (.recordMessage "first" "message" "author" 2),
    .card (.save Sample.mr "late" 9 Sample.card),
    .card (.save Sample.mr "second" 12 Sample.card)]

def afterWebhooks : SaveRun :=
  webhooks.foldl (SaveRun.step Sample.mr) ⟨Broker.empty, []⟩

end LatestSample

open LatestSample in
theorem newest_webhook_latest :
    afterWebhooks.saved = [("first", 11), ("second", 12)] ∧
      IsGreatest afterWebhooks.pipelines 12 ∧
      (afterWebhooks.broker.saveTriageCard Sample.mr "again" 11 Sample.card).1 =
        afterWebhooks.broker := by
  have fresh : SaveRun.Fresh Sample.mr ⟨Broker.empty, []⟩ := ⟨rfl, rfl, rfl⟩
  have run : Reaches (SaveRun.step Sample.mr) (fun _ op => op.sparesLatest Sample.mr)
      ⟨Broker.empty, []⟩ afterWebhooks :=
    Reaches.of_follows ⟨trivial, trivial, trivial, trivial, trivial⟩
  have saved : afterWebhooks.saved = [("first", 11), ("second", 12)] := by
    decide +kernel
  obtain ⟨numbers, _, refused⟩ := latest_repair_card_newest Sample.mr fresh run
  refine ⟨saved, (numbers 12).mp (by decide +kernel), refused "again" 11 Sample.card (Or.inr ?_)⟩
  refine ⟨12, ⟨"second", ?_⟩, by decide⟩
  rw [saved]
  decide

end MrAgent
