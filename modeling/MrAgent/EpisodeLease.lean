import Mathlib
import MrAgent.RepairMemoryStore
import MrAgent.TransitionSystem

namespace MrAgent

open UniqueTable TransitionSystem

/-!
# Claims on episodes

Any number of workers claim episodes for a while and mark them when they have
consolidated them. A claim may be taken over when its lease has run out; a mark
looks at neither the owner nor the lease. The module says which marks are safe.
-/

/-- What a worker writes about an episode it has claimed. -/
inductive EpisodeMark where
  | consolidated (processedAt : String)
  | failed (errorCode : String)
  | invalid (errorCode : String)
deriving DecidableEq

namespace EpisodeRow

/-- `mark_episode_consolidated`, `mark_episode_failed` and `mark_episode_invalid`. -/
def mark (row : EpisodeRow) : EpisodeMark → EpisodeRow
  | .consolidated processedAt =>
    { row with consolidationStatus := .complete, processedAt := some processedAt }
  | .failed errorCode =>
    { row with
      consolidationStatus := .pending
      lastErrorCode := some (String.ofList (errorCode.toList.take 120)) }
  | .invalid errorCode =>
    { row with
      consolidationStatus := .invalid
      lastErrorCode := some (String.ofList (errorCode.toList.take 120)) }

/-- The row may be claimed: it waits, or the lease of its claim has run out. -/
def claimable (now : Time) (row : EpisodeRow) : Bool :=
  row.consolidationStatus = .pending ||
    (row.consolidationStatus = .claimed && row.consolidationLeaseUntil.any (· < now))

/-- The row with a new claim. -/
def claimedBy (owner : String) (leaseUntil : Time) (row : EpisodeRow) : EpisodeRow :=
  { row with
    consolidationStatus := .claimed
    consolidationOwner := some owner
    consolidationLeaseUntil := some leaseUntil }

/-- The consolidation of the episode is over. -/
def finished (row : EpisodeRow) : Bool :=
  row.consolidationStatus = .complete || row.consolidationStatus = .invalid

end EpisodeRow

namespace MemoryStore

/-- `UPDATE repair_memory_episodes ... WHERE episode_id = ?`. -/
def changeEpisode
    (store : MemoryStore)
    (episodeId : String)
    (change : EpisodeRow → EpisodeRow)
    (same : ∀ row, ((change row).episodeId, (change row).taskId, (change row).actionIdentity) =
      (row.episodeId, row.taskId, row.actionIdentity)) : MemoryStore :=
  { store with
    episodes := store.episodes.modify (fun row => row.episodeId = episodeId) change (by
      intro first second apart
      have key : ∀ row, (Table.changed (fun row => row.episodeId = episodeId) change row).episodeId =
            row.episodeId ∧
          (Table.changed (fun row => row.episodeId = episodeId) change row).taskId = row.taskId ∧
          (Table.changed (fun row => row.episodeId = episodeId) change row).actionIdentity =
            row.actionIdentity := by
        intro row
        unfold Table.changed
        split
        · simpa using same row
        · exact ⟨rfl, rfl, rfl⟩
      simp only [EpisodeRow.indexes, (key _).1, (key _).2.1, (key _).2.2] at apart ⊢
      exact apart) }

/-- `mark_episode_consolidated`, `mark_episode_failed` and `mark_episode_invalid`. -/
def markEpisode (store : MemoryStore) (episodeId : String) (mark : EpisodeMark) : MemoryStore :=
  store.changeEpisode episodeId (fun row => row.mark mark) (by
    intro row
    cases mark <;> rfl)

def claimEpisode
    (owner : String)
    (leaseUntil : Time)
    (store : MemoryStore)
    (episodeId : String) : MemoryStore :=
  store.changeEpisode episodeId (EpisodeRow.claimedBy owner leaseUntil) fun _ => rfl

/-- The episodes that `claim_pending_episodes` selects. -/
def dueEpisodes (store : MemoryStore) (limit : Nat) (now : Time) : List String :=
  (((store.episodes.rows.filter (EpisodeRow.claimable now)).insertionSort
    fun first second => first.createdAt ≤ second.createdAt).take (max 1 limit)).map (·.episodeId)

/-- `claim_pending_episodes`, with the identifiers of the claimed episodes. -/
def claimPendingEpisodes
    (store : MemoryStore)
    (owner : String)
    (limit leaseSeconds : Nat)
    (now : Time) : MemoryStore × List String :=
  let leaseUntil := now + (max 1 leaseSeconds : Nat)
  let due := store.dueEpisodes limit now
  (due.foldl (claimEpisode owner leaseUntil) store, due)

end MemoryStore

/-! ## The workers -/

/-- An episode that a worker has claimed and not yet marked. -/
structure HeldEpisode where
  owner : String
  episodeId : String
  leaseUntil : Time
deriving DecidableEq

/-- The store, the time, and what the workers hold. -/
structure LeaseState where
  store : MemoryStore
  clock : Time
  held : List HeldEpisode

/-- One step of some worker, or a new episode. -/
inductive EpisodeLeaseOp where
  | save (episode : EpisodeRow)
  | claim (owner : String) (limit leaseSeconds : Nat) (now : Time)
  | mark (held : HeldEpisode) (mark : EpisodeMark) (now : Time)

/-- The row of the episode still has this claim. -/
def MemoryStore.StillHeld (store : MemoryStore) (held : HeldEpisode) : Prop :=
  ∃ row ∈ store.episodes.rows, row.episodeId = held.episodeId ∧
    row.consolidationStatus = .claimed ∧ row.consolidationOwner = some held.owner ∧
    row.consolidationLeaseUntil = some held.leaseUntil

/-- Another worker has claimed the episode. -/
def MemoryStore.TakenOver (store : MemoryStore) (held : HeldEpisode) : Prop :=
  ∃ row ∈ store.episodes.rows, row.episodeId = held.episodeId ∧
    row.consolidationOwner ≠ some held.owner

namespace EpisodeLeaseOp

def step (state : LeaseState) : EpisodeLeaseOp → LeaseState
  | save episode => { state with store := state.store.saveEpisode episode }
  | claim owner limit leaseSeconds now =>
    let (store, claimed) := state.store.claimPendingEpisodes owner limit leaseSeconds now
    { store := store
      clock := now
      held := state.held ++ claimed.map fun episodeId =>
        { owner := owner, episodeId := episodeId, leaseUntil := now + (max 1 leaseSeconds : Nat) } }
  | mark held written now =>
    { store := state.store.markEpisode held.episodeId written
      clock := now
      held := state.held.filter (· ≠ held) }

/--
Time does not go back. A worker marks what it holds, within its lease or as
long as nobody has claimed the episode since.
-/
def allowed (state : LeaseState) : EpisodeLeaseOp → Prop
  | save _ => True
  | claim _ _ _ now => state.clock ≤ now
  | mark held _ now => state.clock ≤ now ∧ held ∈ state.held ∧
    (now ≤ held.leaseUntil ∨ state.store.StillHeld held)

end EpisodeLeaseOp

namespace MemoryStore

variable {store : MemoryStore}

theorem claimEpisode_rows (owner : String) (leaseUntil : Time) (episodeId : String) :
    (claimEpisode owner leaseUntil store episodeId).episodes.rows =
      store.episodes.rows.map (Table.changed (fun row => row.episodeId = episodeId)
        (EpisodeRow.claimedBy owner leaseUntil)) :=
  rfl

theorem markEpisode_rows (episodeId : String) (mark : EpisodeMark) :
    (store.markEpisode episodeId mark).episodes.rows =
      store.episodes.rows.map (Table.changed (fun row => row.episodeId = episodeId)
        fun row => row.mark mark) :=
  rfl

theorem foldl_claimEpisode_rows
    (owner : String)
    (leaseUntil : Time)
    (due : List String) :
    (due.foldl (claimEpisode owner leaseUntil) store).episodes.rows =
      store.episodes.rows.map (Table.changed (fun row => row.episodeId ∈ due)
        (EpisodeRow.claimedBy owner leaseUntil)) := by
  induction due generalizing store with
  | nil =>
      have none : Table.changed (fun row : EpisodeRow => decide (row.episodeId ∈ []))
          (EpisodeRow.claimedBy owner leaseUntil) = id := by
        funext row
        simp [Table.changed]
      rw [none, List.map_id]
      rfl
  | cons episodeId rest ih =>
      rw [List.foldl_cons, ih, claimEpisode_rows, List.map_map]
      apply List.map_congr_left
      intro row _
      simp only [Function.comp_apply, Table.changed, decide_eq_true_eq, List.mem_cons]
      by_cases here : row.episodeId = episodeId
      · by_cases later : episodeId ∈ rest <;> simp [here, later, EpisodeRow.claimedBy]
      · simp [here]

variable {row : EpisodeRow}

theorem claimable_of_due
    {limit : Nat}
    {now : Time}
    (member : row ∈ store.episodes.rows)
    (due : row.episodeId ∈ store.dueEpisodes limit now) :
    row.claimable now = true := by
  unfold dueEpisodes at due
  obtain ⟨other, taken, same⟩ := List.mem_map.mp due
  have sorted := List.mem_of_mem_take taken
  rw [List.mem_insertionSort] at sorted
  obtain ⟨otherMember, claimable⟩ := List.mem_filter.mp sorted
  have clash : EpisodeRow.indexes.clash other row = true := by
    simp [EpisodeRow.indexes, same]
  rw [← Table.eq_of_clash otherMember member clash]
  exact claimable

theorem not_claimable_of_held
    {now leaseUntil : Time}
    (claimed : row.consolidationStatus = .claimed)
    (lease : row.consolidationLeaseUntil = some leaseUntil)
    (running : now ≤ leaseUntil) :
    row.claimable now = false := by
  have late : decide (leaseUntil < now) = false := by
    simpa using running
  simp [EpisodeRow.claimable, claimed, lease, late]

theorem eq_of_episodeId
    {first second : EpisodeRow}
    (left : first ∈ store.episodes.rows)
    (right : second ∈ store.episodes.rows)
    (same : first.episodeId = second.episodeId) :
    first = second :=
  Table.eq_of_clash left right (by simp [EpisodeRow.indexes, same])

end MemoryStore

/-! ## What the leases guarantee -/

namespace LeaseState

/-- A claim whose lease runs still stands. -/
def Leased (state : LeaseState) : Prop :=
  ∀ held ∈ state.held, state.clock ≤ held.leaseUntil → state.store.StillHeld held

variable {state : LeaseState}

variable {now : Time}

variable {held : HeldEpisode}

theorem stillHeld_of_allowed
    (leased : state.Leased)
    {mark : EpisodeMark}
    (permitted : (EpisodeLeaseOp.mark held mark now).allowed state) :
    state.store.StillHeld held := by
  obtain ⟨later, member, inTime | still⟩ := permitted
  · exact leased held member (later.trans inTime)
  · exact still

theorem leased_save
    (leased : state.Leased)
    (episode : EpisodeRow) :
    ((EpisodeLeaseOp.save episode).step state).Leased := by
  intro held member running
  obtain ⟨row, rowMember, facts⟩ := leased held member running
  refine ⟨row, ?_, facts⟩
  simp only [EpisodeLeaseOp.step, MemoryStore.saveEpisode]
  rcases state.store.episodes.insertOrIgnore_eq
    { episode with
      consolidationOwner := none
      consolidationLeaseUntil := none
      lastErrorCode := none
      processedAt := none } with ⟨same, _⟩ | inserted
  · rw [same]
    exact rowMember
  · rw [inserted]
    exact List.mem_append_left _ rowMember

theorem claim_rows
    (state : LeaseState)
    (owner : String)
    (limit leaseSeconds : Nat)
    (now : Time) :
    ((EpisodeLeaseOp.claim owner limit leaseSeconds now).step state).store.episodes.rows =
      state.store.episodes.rows.map
        (Table.changed (fun row => row.episodeId ∈ state.store.dueEpisodes limit now)
          (EpisodeRow.claimedBy owner (now + (max 1 leaseSeconds : Nat)))) :=
  MemoryStore.foldl_claimEpisode_rows _ _ _

theorem leased_claim
    (leased : state.Leased)
    (owner : String)
    (limit leaseSeconds : Nat)
    (later : state.clock ≤ now) :
    ((EpisodeLeaseOp.claim owner limit leaseSeconds now).step state).Leased := by
  intro held member running
  change now ≤ held.leaseUntil at running
  rcases List.mem_append.mp member with old | new
  · obtain ⟨row, rowMember, episode, claimed, own, lease⟩ :=
      leased held old (later.trans running)
    -- The lease of an older claim still runs, so its episode is not due.
    have notDue : row.episodeId ∉ state.store.dueEpisodes limit now := by
      intro due
      have claimable := MemoryStore.claimable_of_due rowMember due
      rw [MemoryStore.not_claimable_of_held claimed lease running] at claimable
      cases claimable
    refine ⟨row, ?_, episode, claimed, own, lease⟩
    rw [claim_rows]
    exact List.mem_map.mpr ⟨row, rowMember, by simp [Table.changed, notDue]⟩
  · obtain ⟨episodeId, due, rfl⟩ := List.mem_map.mp new
    obtain ⟨row, taken, rfl⟩ := List.mem_map.mp due
    have sorted := List.mem_of_mem_take taken
    rw [List.mem_insertionSort] at sorted
    have rowMember := (List.mem_filter.mp sorted).1
    refine ⟨row.claimedBy owner (now + (max 1 leaseSeconds : Nat)), ?_, rfl, rfl, rfl, rfl⟩
    rw [claim_rows]
    have isDue : row.episodeId ∈ state.store.dueEpisodes limit now := due
    exact List.mem_map.mpr ⟨row, rowMember, by simp [Table.changed, isDue]⟩

theorem leased_mark
    (leased : state.Leased)
    {mark : EpisodeMark}
    (permitted : (EpisodeLeaseOp.mark held mark now).allowed state) :
    ((EpisodeLeaseOp.mark held mark now).step state).Leased := by
  obtain ⟨row, rowMember, episode, claimed, own, lease⟩ := stillHeld_of_allowed leased permitted
  intro other member running
  obtain ⟨otherHeld, different⟩ := List.mem_filter.mp member
  obtain ⟨otherRow, otherMember, otherEpisode, otherClaimed, otherOwn, otherLease⟩ :=
    leased other otherHeld (permitted.1.trans running)
  -- Two standing claims on one episode would be the same claim.
  have apart : otherRow.episodeId ≠ held.episodeId := by
    intro same
    have equal := MemoryStore.eq_of_episodeId otherMember rowMember (same.trans episode.symm)
    subst equal
    have identical : other = held := by
      rw [own] at otherOwn
      rw [lease] at otherLease
      obtain ⟨otherOwner, otherId, otherUntil⟩ := other
      obtain ⟨heldOwner, heldId, heldUntil⟩ := held
      cases otherOwn
      cases otherLease
      cases otherEpisode.symm.trans episode
      rfl
    simp [identical] at different
  refine ⟨otherRow, ?_, otherEpisode, otherClaimed, otherOwn, otherLease⟩
  change otherRow ∈ (state.store.markEpisode held.episodeId mark).episodes.rows
  rw [MemoryStore.markEpisode_rows]
  exact List.mem_map.mpr ⟨otherRow, otherMember, by simp [Table.changed, apart]⟩

theorem leased_step
    (leased : state.Leased)
    (op : EpisodeLeaseOp)
    (permitted : op.allowed state) :
    (op.step state).Leased := by
  cases op with
  | save episode =>
      exact leased_save leased episode
  | claim owner limit leaseSeconds now =>
      exact leased_claim leased owner limit leaseSeconds permitted
  | mark held mark now =>
      exact leased_mark leased permitted

theorem finished_step
    (leased : state.Leased)
    (op : EpisodeLeaseOp)
    (permitted : op.allowed state)
    {row : EpisodeRow}
    (member : row ∈ state.store.episodes.rows)
    (finished : row.finished = true) :
    row ∈ (op.step state).store.episodes.rows := by
  have notClaimed : row.consolidationStatus ≠ .claimed := by
    intro claimed
    simp [EpisodeRow.finished, claimed] at finished
  have notPending : row.consolidationStatus ≠ .pending := by
    intro pending
    simp [EpisodeRow.finished, pending] at finished
  cases op with
  | save episode =>
      simp only [EpisodeLeaseOp.step, MemoryStore.saveEpisode]
      rcases state.store.episodes.insertOrIgnore_eq
        { episode with
          consolidationOwner := none
          consolidationLeaseUntil := none
          lastErrorCode := none
          processedAt := none } with ⟨same, _⟩ | inserted
      · rw [same]
        exact member
      · rw [inserted]
        exact List.mem_append_left _ member
  | claim owner limit leaseSeconds now =>
      have notDue : row.episodeId ∉ state.store.dueEpisodes limit now := by
        intro due
        have claimable := MemoryStore.claimable_of_due member due
        simp [EpisodeRow.claimable, notClaimed, notPending] at claimable
      rw [claim_rows]
      exact List.mem_map.mpr ⟨row, member, by simp [Table.changed, notDue]⟩
  | mark held mark now =>
      obtain ⟨marked, markedMember, episode, claimed, _⟩ := stillHeld_of_allowed leased permitted
      have apart : row.episodeId ≠ held.episodeId := by
        intro same
        have equal := MemoryStore.eq_of_episodeId member markedMember (same.trans episode.symm)
        subst equal
        exact notClaimed claimed
      change row ∈ (state.store.markEpisode held.episodeId mark).episodes.rows
      rw [MemoryStore.markEpisode_rows]
      exact List.mem_map.mpr ⟨row, member, by simp [Table.changed, apart]⟩

/-- A finished episode stays as it is, and a mark that is made comes from the worker that has the
episode, when late marks are made on unclaimed episodes only. -/
theorem finished_episodes_stay
    {start reached : LeaseState}
    (begins : start.held = [])
    (run : Reaches EpisodeLeaseOp.step EpisodeLeaseOp.allowed start reached) :
    (∀ final, Reaches EpisodeLeaseOp.step EpisodeLeaseOp.allowed reached final →
      ∀ row ∈ reached.store.episodes.rows, row.finished = true →
        row ∈ final.store.episodes.rows) ∧
    ∀ held mark now, (EpisodeLeaseOp.mark held mark now).allowed reached →
      reached.store.StillHeld held ∧
        (reached.store.TakenOver held →
          ((EpisodeLeaseOp.mark held mark now).step reached).store = reached.store) := by
  have leased : reached.Leased := by
    apply run.invariant Leased
    · intro state op kept permitted
      exact leased_step kept op permitted
    · intro held member
      rw [begins] at member
      cases member
  constructor
  · intro final further row member finished
    have both := further.invariant
      (fun state => state.Leased ∧ row ∈ state.store.episodes.rows) ?_ ⟨leased, member⟩
    · exact both.2
    · rintro state op ⟨kept, present⟩ permitted
      exact ⟨leased_step kept op permitted, finished_step kept op permitted present finished⟩
  · intro held mark now permitted
    have still := stillHeld_of_allowed leased permitted
    refine ⟨still, ?_⟩
    rintro ⟨row, member, episode, other⟩
    obtain ⟨standing, standingMember, same, _, own, _⟩ := still
    have equal := MemoryStore.eq_of_episodeId member standingMember (episode.trans same.symm)
    subst equal
    exact absurd own other

/-- While nobody marks an episode that it has lost, an episode has one running claim at most. -/
theorem running_claims_exclusive
    {start reached : LeaseState}
    (begins : start.held = [])
    (run : Reaches EpisodeLeaseOp.step EpisodeLeaseOp.allowed start reached)
    {first second : HeldEpisode}
    (left : first ∈ reached.held ∧ reached.clock ≤ first.leaseUntil)
    (right : second ∈ reached.held ∧ reached.clock ≤ second.leaseUntil)
    (same : first.episodeId = second.episodeId) :
    first = second := by
  have leased : reached.Leased := by
    apply run.invariant Leased
    · intro state op kept permitted
      exact leased_step kept op permitted
    · intro held member
      rw [begins] at member
      cases member
  obtain ⟨row, member, episode, -, owner, lease⟩ := leased first left.1 left.2
  obtain ⟨row', member', episode', -, owner', lease'⟩ := leased second right.1 right.2
  obtain rfl := MemoryStore.eq_of_episodeId member member'
    (episode.trans (same.trans episode'.symm))
  obtain ⟨_, _, _⟩ := first
  obtain ⟨_, _, _⟩ := second
  simp_all

namespace SlowWorker

def episode : EpisodeRow where
  diagnosticFingerprint := "f"
  causalTokens := []
  changedFiles := []
  episodeId := "e"
  taskId := "t"
  actionIdentity := "a"
  project := "demo"

def start : LeaseState where
  store := MemoryStore.empty.saveEpisode episode
  clock := 0
  held := []

def slow : HeldEpisode := { owner := "slow", episodeId := "e", leaseUntil := 300 }

def quick : HeldEpisode := { owner := "quick", episodeId := "e", leaseUntil := 601 }

/-- The claim of the slow worker runs out and the quick one rejects the episode. -/
def rejected : LeaseState :=
  [EpisodeLeaseOp.claim "slow" 50 300 0, .claim "quick" 50 300 301,
    .mark quick (.invalid "invalid_candidate:language") 310].foldl EpisodeLeaseOp.step start

theorem slow_in_time :
    ((EpisodeLeaseOp.claim "slow" 50 300 0).step start).store.StillHeld slow := by
  have run : Reaches EpisodeLeaseOp.step EpisodeLeaseOp.allowed start
      ((EpisodeLeaseOp.claim "slow" 50 300 0).step start) :=
    (Reaches.refl _).snoc (EpisodeLeaseOp.claim "slow" 50 300 0) (le_refl (0 : Time))
  have permitted : (EpisodeLeaseOp.mark slow (.failed "provider_unavailable") 200).allowed
      ((EpisodeLeaseOp.claim "slow" 50 300 0).step start) := by
    refine ⟨?_, ?_, Or.inl ?_⟩ <;> decide +kernel
  exact ((finished_episodes_stay rfl run).2 slow _ 200 permitted).1

/-- The late mark of the slow worker reopens an episode that was invalid for good. -/
theorem late_mark_reopens :
    slow ∈ rejected.held ∧ rejected.store.TakenOver slow ∧
      rejected.store.episodes.rows.map (·.consolidationStatus) = [.invalid] ∧
      ((EpisodeLeaseOp.mark slow (.failed "provider_unavailable") 320).step
        rejected).store.episodes.rows.map (·.consolidationStatus) = [.pending] := by
  unfold MemoryStore.TakenOver
  decide +kernel

theorem quick_alone_has_episode :
    let reached := [EpisodeLeaseOp.claim "slow" 50 300 0, .claim "quick" 50 300 301].foldl
      EpisodeLeaseOp.step start
    slow ∈ reached.held ∧
      ∀ held ∈ reached.held, reached.clock ≤ held.leaseUntil → held.episodeId = "e" →
        held = quick := by
  intro reached
  have run : Reaches EpisodeLeaseOp.step EpisodeLeaseOp.allowed start reached :=
    Reaches.of_follows ⟨le_refl (0 : Time), (by decide +kernel : (0 : Time) ≤ 301), trivial⟩
  refine ⟨by decide +kernel, fun held member running episode => ?_⟩
  exact running_claims_exclusive rfl run ⟨member, running⟩ (by decide +kernel) episode

end SlowWorker

end LeaseState

end MrAgent
