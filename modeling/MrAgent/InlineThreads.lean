import MrAgent.InlinePublisher

namespace MrAgent

open Interruptible

/-!
# One thread per suggestion

The publisher takes a thread that carries its marker for its own. That is right
when no other text carries the marker. The invariant says of every note whether
it is a post, and of which payload; a lookup that finds nothing, or fails while
there is nothing to find, leaves the way free for one post.
-/

/-- The markers tell the payloads of a history apart, and identical suggestions share theirs. -/
structure Distinguished (known : InlinePayload → Prop) : Prop where
  marked : ∀ payload, known payload →
    containsText payload.native payload.marker = true ∧
      containsText payload.fallback payload.marker = true
  apart : ∀ first second, known first → known second →
    containsText second.native first.marker = true ∨
      containsText second.fallback first.marker = true → first = second
  same : ∀ first second, known first → known second → first.identical second →
    first.marker = second.marker

/-- The text is what the publisher posts for the payload. -/
def InlinePayload.wrote (payload : InlinePayload) (text : String) : Prop :=
  text = payload.native ∨ text = payload.fallback

/-- A result that names a discussion or note is backed by the payload's own post. -/
def Backed (w : InlineWorld) (item : InlinePayload × InlineResult) : Prop :=
  item.2.status ≠ .failed →
    ∃ post ∈ w.posts, post.payload = item.1 ∧ item.2.noteId = some post.noteId ∧
      (item.2.discussionId = some post.discussionId ∨ item.2.discussionId = none)

/-- The invariant of all calls. -/
structure InlineInv (known : InlinePayload → Prop) (w : InlineWorld) : Prop where
  threadIds : (w.threads.map (·.id)).Nodup
  threadBound : ∀ thread ∈ w.threads, thread.id < w.nextId
  sources : ∀ thread ∈ w.threads, ∀ note ∈ thread.notes, Unmarked known note.body ∨
    ∃ payload, known payload ∧ ⟨thread.id, note.id, payload⟩ ∈ w.posts ∧ payload.wrote note.body
  posted : ∀ post ∈ w.posts, known post.payload ∧
    ∃ thread ∈ w.threads, thread.id = post.discussionId ∧
      ∃ body, thread.notes.head? = some ⟨post.noteId, body⟩ ∧ post.payload.wrote body
  discussionIds : (w.posts.map (·.discussionId)).Nodup
  noteIds : (w.posts.map (·.noteId)).Nodup
  noteBound : ∀ post ∈ w.posts, post.noteId < w.nextId
  once : w.posts.Pairwise fun first second =>
    first.payload.identical second.payload → second.payload.marker ∈ w.missed
  reported : ∀ item ∈ w.reports, Backed w item

/-- Nothing identical was posted, or a lookup of the marker has failed. -/
def Clear (w : InlineWorld) (payload : InlinePayload) : Prop :=
  payload.marker ∈ w.missed ∨ ∀ post ∈ w.posts, ¬post.payload.identical payload

/-- The world between two calls of the publisher. -/
def Rests (before after : InlineWorld) : Prop :=
  after.posts = before.posts ∧ after.missed = before.missed

theorem nodup_map_snoc
    {α : Type}
    {items : List α} {item : α} {key : α → Nat}
    (apart : (items.map key).Nodup)
    (below : ∀ other ∈ items, key other < key item) :
    ((items ++ [item]).map key).Nodup := by
  rw [List.map_append, List.nodup_append]
  refine ⟨apart, List.nodup_singleton _, ?_⟩
  intro old member new last same
  obtain ⟨other, inside, rfl⟩ := List.mem_map.mp member
  rw [List.mem_singleton.mp last] at same
  exact absurd same (Nat.ne_of_lt (below other inside))

section Facts

variable {known : InlinePayload → Prop} {w after : InlineWorld} {payload : InlinePayload}

theorem Backed.grow
    {item : InlinePayload × InlineResult}
    (backed : Backed w item)
    (grows : w.posts ⊆ after.posts) :
    Backed after item := by
  intro published
  obtain ⟨post, member, rest⟩ := backed published
  exact ⟨post, grows member, rest⟩

theorem backed_failed (reason : InlineSkip) (attempts : Nat) :
    Backed w (payload, failedResult reason attempts) :=
  fun published => absurd rfl published

theorem Clear.rest
    (clear : Clear w payload)
    (rests : Rests w after) :
    Clear after payload := by
  rcases clear with missed | free
  · exact Or.inl (rests.2 ▸ missed)
  · exact Or.inr (rests.1 ▸ free)

namespace InlineInv

theorem own
    (inv : InlineInv known w)
    (distinguished : Distinguished known)
    (knows : known payload)
    {thread : MrThread} {note : MrNote}
    (inside : thread ∈ w.threads)
    (member : note ∈ thread.notes)
    (carried : containsText note.body payload.marker = true) :
    ⟨thread.id, note.id, payload⟩ ∈ w.posts := by
  rcases inv.sources thread inside note member with foreign | ⟨author, authorKnown, post, wrote⟩
  · rw [foreign payload knows] at carried
    cases carried
  · have same : payload = author := by
      apply distinguished.apart payload author knows authorKnown
      rcases wrote with text | text
      · exact Or.inl (text ▸ carried)
      · exact Or.inr (text ▸ carried)
    rwa [same]

theorem head_of_post
    (inv : InlineInv known w)
    {post : InlinePost} {thread : MrThread}
    (member : post ∈ w.posts)
    (inside : thread ∈ w.threads)
    (same : thread.id = post.discussionId) :
    thread.notes.head?.map (·.id) = some post.noteId := by
  obtain ⟨_, opened, openedInside, openedId, body, head, _⟩ := inv.posted post member
  have equal : thread = opened :=
    List.inj_on_of_nodup_map inv.threadIds inside openedInside (same.trans openedId.symm)
  rw [equal, head]
  rfl

theorem backed_of_carrier
    (inv : InlineInv known w)
    (distinguished : Distinguished known)
    (knows : known payload)
    {thread : MrThread}
    (found : w.carrier payload.marker = some thread)
    (attempts : Nat) :
    Backed w (payload, publishedInlineResult thread attempts) := by
  intro _
  have inside := List.mem_of_find?_eq_some found
  have carries : thread.carries payload.marker = true := by
    simpa using List.find?_some found
  obtain ⟨note, member, carried⟩ := List.any_eq_true.mp carries
  have post := inv.own distinguished knows inside member carried
  exact ⟨_, post, rfl, inv.head_of_post post inside rfl, Or.inl rfl⟩

theorem backed_of_note
    (inv : InlineInv known w)
    (distinguished : Distinguished known)
    (knows : known payload)
    {note : MrNote}
    (found : (w.threads.flatMap (·.notes)).reverse.find?
      (fun note => containsText note.body payload.marker) = some note)
    (attempts : Nat) :
    Backed w (payload, fallbackResult note.id attempts) := by
  intro _
  have listed := List.mem_reverse.mp (List.mem_of_find?_eq_some found)
  obtain ⟨thread, inside, member⟩ := List.mem_flatMap.mp listed
  have carried : containsText note.body payload.marker = true := by
    simpa using List.find?_some found
  exact ⟨_, inv.own distinguished knows inside member carried, rfl, rfl, Or.inr rfl⟩

theorem free_of_uncarried
    (inv : InlineInv known w)
    (distinguished : Distinguished known)
    (knows : known payload)
    (absent : w.carrier payload.marker = none) :
    ∀ post ∈ w.posts, ¬post.payload.identical payload := by
  intro post member identical
  obtain ⟨postKnown, thread, inside, _, body, head, wrote⟩ := inv.posted post member
  have marker := distinguished.same post.payload payload postKnown knows identical
  have carried : containsText body payload.marker = true := by
    obtain ⟨native, fallback⟩ := distinguished.marked post.payload postKnown
    rw [← marker]
    rcases wrote with text | text
    · rw [text]
      exact native
    · rw [text]
      exact fallback
  have carries : thread.carries payload.marker = true :=
    List.any_eq_true.mpr ⟨_, List.mem_of_head? head, carried⟩
  have uncarried := List.find?_eq_none.mp absent thread inside
  exact uncarried carries

theorem post
    (inv : InlineInv known w)
    (knows : known payload)
    (clear : Clear w payload)
    {text : String}
    (wrote : payload.wrote text) :
    InlineInv known (w.post payload text) where
  threadIds := nodup_map_snoc inv.threadIds inv.threadBound
  threadBound := by
    intro thread member
    rcases List.mem_append.mp member with old | new
    · exact Nat.lt_succ_of_lt (inv.threadBound thread old)
    · rw [List.mem_singleton.mp new]
      exact Nat.lt_succ_self _
  sources := by
    intro thread member note inside
    rcases List.mem_append.mp member with old | new
    · rcases inv.sources thread old note inside with foreign | ⟨author, authorKnown, posted, text⟩
      · exact Or.inl foreign
      · exact Or.inr ⟨author, authorKnown, List.mem_append_left _ posted, text⟩
    · rw [List.mem_singleton.mp new] at inside ⊢
      rw [List.mem_singleton.mp inside]
      exact Or.inr ⟨payload, knows, List.mem_append_right _ (List.mem_singleton_self _), wrote⟩
  posted := by
    intro other member
    rcases List.mem_append.mp member with old | new
    · obtain ⟨otherKnown, thread, inside, rest⟩ := inv.posted other old
      exact ⟨otherKnown, thread, List.mem_append_left _ inside, rest⟩
    · rw [List.mem_singleton.mp new]
      exact ⟨knows, _, List.mem_append_right _ (List.mem_singleton_self _), rfl, text, rfl, wrote⟩
  discussionIds := by
    refine nodup_map_snoc inv.discussionIds ?_
    intro other earlier
    obtain ⟨_, thread, inside, id, _⟩ := inv.posted other earlier
    exact id ▸ inv.threadBound thread inside
  noteIds := nodup_map_snoc inv.noteIds inv.noteBound
  noteBound := by
    intro other member
    rcases List.mem_append.mp member with old | new
    · exact Nat.lt_succ_of_lt (inv.noteBound other old)
    · rw [List.mem_singleton.mp new]
      exact Nat.lt_succ_self _
  once := by
    refine List.pairwise_append.mpr ⟨inv.once, List.pairwise_singleton _ _, ?_⟩
    intro earlier member last only identical
    rw [List.mem_singleton.mp only] at identical ⊢
    rcases clear with missed | free
    · exact missed
    · exact absurd identical (free earlier member)
  reported := by
    intro item member
    exact (inv.reported item member).grow (List.subset_append_left _ _)

theorem miss
    (inv : InlineInv known w)
    (marker : String) :
    InlineInv known { w with missed := w.missed ++ [marker] } where
  threadIds := inv.threadIds
  threadBound := inv.threadBound
  sources := inv.sources
  posted := inv.posted
  discussionIds := inv.discussionIds
  noteIds := inv.noteIds
  noteBound := inv.noteBound
  once := by
    refine inv.once.imp ?_
    intro first second once identical
    exact List.mem_append_left _ (once identical)
  reported := inv.reported

theorem report
    (inv : InlineInv known w)
    {item : InlinePayload × InlineResult}
    (backed : Backed w item) :
    InlineInv known { w with reports := w.reports ++ [item] } where
  threadIds := inv.threadIds
  threadBound := inv.threadBound
  sources := inv.sources
  posted := inv.posted
  discussionIds := inv.discussionIds
  noteIds := inv.noteIds
  noteBound := inv.noteBound
  once := inv.once
  reported := by
    intro other member
    rcases List.mem_append.mp member with old | new
    · exact inv.reported other old
    · rw [List.mem_singleton.mp new]
      exact backed

theorem foreign
    (inv : InlineInv known w)
    (rests : Rests w after)
    (reports : after.reports = w.reports)
    (later : w.nextId ≤ after.nextId)
    (threadIds : (after.threads.map (·.id)).Nodup)
    (threadBound : ∀ thread ∈ after.threads, thread.id < after.nextId)
    (notes : ∀ thread ∈ after.threads, ∀ note ∈ thread.notes, Unmarked known note.body ∨
      ∃ old ∈ w.threads, old.id = thread.id ∧ note ∈ old.notes)
    (heads : ∀ thread ∈ w.threads, ∀ note, thread.notes.head? = some note →
      ∃ next ∈ after.threads, next.id = thread.id ∧ next.notes.head? = some note) :
    InlineInv known after where
  threadIds := threadIds
  threadBound := threadBound
  sources := by
    intro thread member note inside
    rcases notes thread member note inside with plain | ⟨old, oldMember, id, oldNote⟩
    · exact Or.inl plain
    · rw [← id, rests.1]
      exact inv.sources old oldMember note oldNote
  posted := by
    intro post member
    rw [rests.1] at member
    obtain ⟨knows, thread, inside, id, body, head, wrote⟩ := inv.posted post member
    obtain ⟨next, nextInside, nextId, nextHead⟩ := heads thread inside _ head
    exact ⟨knows, next, nextInside, nextId.trans id, body, nextHead, wrote⟩
  discussionIds := by
    rw [rests.1]
    exact inv.discussionIds
  noteIds := by
    rw [rests.1]
    exact inv.noteIds
  noteBound := by
    intro post member
    rw [rests.1] at member
    exact (inv.noteBound post member).trans_le later
  once := by
    rw [rests.1, rests.2]
    exact inv.once
  reported := by
    intro item member
    rw [reports] at member
    exact (inv.reported item member).grow (rests.1 ▸ List.Subset.refl _)

theorem comment
    (inv : InlineInv known w)
    (comment : MrComment)
    (plain : Unmarked known comment.body) :
    InlineInv known (comment.apply w) := by
  obtain ⟨target, body⟩ := comment
  cases target with
  | none =>
      refine inv.foreign ⟨rfl, rfl⟩ rfl (Nat.le_succ _) ?_ ?_ ?_ ?_
      · exact nodup_map_snoc inv.threadIds inv.threadBound
      · intro thread member
        rcases List.mem_append.mp member with old | new
        · exact Nat.lt_succ_of_lt (inv.threadBound thread old)
        · rw [List.mem_singleton.mp new]
          exact Nat.lt_succ_self _
      · intro thread member note inside
        rcases List.mem_append.mp member with old | new
        · exact Or.inr ⟨thread, old, rfl, inside⟩
        · rw [List.mem_singleton.mp new] at inside
          rw [List.mem_singleton.mp inside]
          exact Or.inl plain
      · intro thread member note head
        exact ⟨thread, List.mem_append_left _ member, rfl, head⟩
  | some id =>
      let reply : MrThread → MrThread := fun thread =>
        if thread.id = id then { thread with notes := thread.notes ++ [⟨w.nextId, body⟩] }
        else thread
      have ids : ∀ thread, (reply thread).id = thread.id := by
        intro thread
        dsimp only [reply]
        split
        · rfl
        · rfl
      refine inv.foreign ⟨rfl, rfl⟩ rfl (Nat.le_succ _) ?_ ?_ ?_ ?_
      · have same : (w.threads.map reply).map (·.id) = w.threads.map (·.id) := by
          rw [List.map_map]
          exact List.map_congr_left fun thread _ => ids thread
        change ((w.threads.map reply).map (·.id)).Nodup
        rw [same]
        exact inv.threadIds
      · intro thread member
        obtain ⟨old, inside, rfl⟩ := List.mem_map.mp member
        rw [show (if old.id = id then _ else _ : MrThread).id = old.id from ids old]
        exact Nat.lt_succ_of_lt (inv.threadBound old inside)
      · intro thread member note inside
        obtain ⟨old, oldInside, rfl⟩ := List.mem_map.mp member
        split at inside
        · rename_i here
          rcases List.mem_append.mp inside with earlier | last
          · exact Or.inr ⟨old, oldInside, (ids old).symm, earlier⟩
          · rw [List.mem_singleton.mp last]
            exact Or.inl plain
        · exact Or.inr ⟨old, oldInside, (ids old).symm, inside⟩
      · intro thread member note head
        refine ⟨reply thread, List.mem_map_of_mem member, ids thread, ?_⟩
        dsimp only [reply]
        split
        · rw [List.head?_append, head]
          rfl
        · exact head

end InlineInv

end Facts

/-! ## The outline -/

/-- The outline of the argument. -/
def inlineOutline (env : InlineEnv) (known : InlinePayload → Prop) :
    Outline (inlineMachine env known) where
  inv := InlineInv known
  grows := fun _ _ => True
  rely := fun _ => Rests
  ready := fun _ _ _ => True
  grows_refl := fun _ => trivial
  grows_trans := fun _ _ => trivial
  rely_refl := fun _ _ => ⟨rfl, rfl⟩
  rely_trans := fun left right => ⟨right.1.trans left.1, right.2.trans left.2⟩

/-- What a part of the program ends with: it never raises, and the earlier results stay backed. -/
def EndsWith
    {α : Type}
    (facts : List (InlinePayload × InlineResult))
    (goal : α → InlineWorld → Prop) : Except String α → InlineWorld → Prop
  | .ok value, now => (∀ item ∈ facts, Backed now item) ∧ goal value now
  | .error _, _ => False

section Program

variable {env : InlineEnv} {known : InlinePayload → Prop} {input : InlineInput env known}
variable {α : Type} {facts : List (InlinePayload × InlineResult)}
variable {post : Except String α → InlineWorld → Prop} {world : InlineWorld}
variable {payload : InlinePayload}

/-- The rest of a call is safe. -/
abbrev Sound
    (input : InlineInput env known)
    (post : Except String α → InlineWorld → Prop)
    (program : InlineProgram α)
    (world : InlineWorld) : Prop :=
  (inlineOutline env known).Safe () input post program world

variable {now : InlineWorld}

theorem backed_rest
    (held : ∀ item ∈ facts, Backed world item)
    (rests : Rests world now) :
    ∀ item ∈ facts, Backed now item := by
  intro item member
  exact (held item member).grow (rests.1 ▸ List.Subset.refl _)

theorem sound_findDiscussion
    (distinguished : Distinguished known)
    (knows : known payload)
    {next : Option MrThread → InlineProgram α}
    (held : ∀ item ∈ facts, Backed world item)
    (found : ∀ now thread, (∀ item ∈ facts, Backed now item) →
      (∀ attempts, Backed now (payload, publishedInlineResult thread attempts)) →
        Sound input post (next (some thread)) now)
    (absent : ∀ now, (∀ item ∈ facts, Backed now item) → Clear now payload →
      Sound input post (next none) now) :
    Sound input post (inlineAsk (.findDiscussion payload.marker) >>= next) world := by
  intro now rests inv
  refine ⟨trivial, ?_⟩
  intro answer _
  have here := backed_rest held rests
  cases answer with
  | true =>
      refine ⟨inv, ?_⟩
      cases carrier : now.carrier payload.marker with
      | some thread =>
          change Sound input post (next (now.carrier payload.marker)) now
          rw [carrier]
          exact found now thread here
            fun attempts => inv.backed_of_carrier distinguished knows carrier attempts
      | none =>
          change Sound input post (next (now.carrier payload.marker)) now
          rw [carrier]
          exact absent now here (Or.inr (inv.free_of_uncarried distinguished knows carrier))
  | false =>
      -- A failed lookup is recorded when there was something to find.
      cases carrier : now.carrier payload.marker with
      | some thread =>
          have performed : (inlineMachine env known).perform ()
              (.findDiscussion payload.marker) false now =
                ({ now with missed := now.missed ++ [payload.marker] }, none) := by
            simp [inlineMachine, InlineWorld.perform, carrier]
          rw [performed]
          refine ⟨inv.miss payload.marker, ?_⟩
          exact absent _ (fun item member => (here item member).grow (List.Subset.refl _))
            (Or.inl (List.mem_append_right _ (List.mem_singleton_self _)))
      | none =>
          have performed : (inlineMachine env known).perform ()
              (.findDiscussion payload.marker) false now = (now, none) := by
            simp [inlineMachine, InlineWorld.perform, carrier]
          rw [performed]
          exact ⟨inv, absent now here
            (Or.inr (inv.free_of_uncarried distinguished knows carrier))⟩

theorem sound_findNote
    (distinguished : Distinguished known)
    (knows : known payload)
    {next : Option Nat → InlineProgram α}
    (held : ∀ item ∈ facts, Backed world item)
    (found : ∀ now note, (∀ item ∈ facts, Backed now item) →
      (∀ attempts, Backed now (payload, fallbackResult note attempts)) →
        Sound input post (next (some note)) now)
    (absent : ∀ now, (∀ item ∈ facts, Backed now item) → Rests world now →
      Sound input post (next none) now) :
    Sound input post (inlineAsk (.findNote payload.marker) >>= next) world := by
  intro now rests inv
  refine ⟨trivial, ?_⟩
  intro answer _
  have here := backed_rest held rests
  cases answer with
  | true =>
      have performed : (inlineMachine env known).perform () (.findNote payload.marker) true now =
          (now, ((now.threads.flatMap (·.notes)).reverse.find? fun note =>
            containsText note.body payload.marker).map (·.id)) :=
        rfl
      rw [performed]
      cases note : (now.threads.flatMap (·.notes)).reverse.find?
          (fun note => containsText note.body payload.marker) with
      | some note_ =>
          refine ⟨inv, ?_⟩
          exact found now note_.id here
            fun attempts => inv.backed_of_note distinguished knows note attempts
      | none =>
          exact ⟨inv, absent now here rests⟩
  | false =>
      exact ⟨inv, absent now here rests⟩

theorem sound_locate
    {next : LocateAnswer → InlineProgram α}
    (held : ∀ item ∈ facts, Backed world item)
    (rest : ∀ now located, (∀ item ∈ facts, Backed now item) → Rests world now →
      Sound input post (next located) now) :
    Sound input post (inlineAsk .locate >>= next) world := by
  intro now rests inv
  exact ⟨trivial, fun answer _ => ⟨inv, rest now answer (backed_rest held rests) rests⟩⟩

theorem sound_refresh
    {next : Bool → InlineProgram α}
    (held : ∀ item ∈ facts, Backed world item)
    (rest : ∀ now refreshed, (∀ item ∈ facts, Backed now item) → Rests world now →
      Sound input post (next refreshed) now) :
    Sound input post (inlineAsk .refresh >>= next) world := by
  intro now rests inv
  exact ⟨trivial, fun answer _ => ⟨inv, rest now answer (backed_rest held rests) rests⟩⟩

theorem backed_post
    (held : ∀ item ∈ facts, Backed now item)
    (other : InlinePayload) (text : String) :
    ∀ item ∈ facts, Backed (now.post other text) item := by
  intro item member
  exact (held item member).grow (List.subset_append_left _ _)

theorem sound_createDiscussion
    (knows : known payload)
    (clear : Clear world payload)
    {next : Option MrThread → InlineProgram α}
    (held : ∀ item ∈ facts, Backed world item)
    (created : ∀ now thread, (∀ item ∈ facts, Backed now item) →
      (∀ attempts, Backed now (payload, publishedInlineResult thread attempts)) →
        Sound input post (next (some thread)) now)
    (absent : ∀ now, (∀ item ∈ facts, Backed now item) → Sound input post (next none) now) :
    Sound input post (inlineAsk (.createDiscussion payload) >>= next) world := by
  intro now rests inv
  refine ⟨trivial, ?_⟩
  intro answer _
  have here := backed_rest held rests
  have posted := inv.post knows (clear.rest rests) (Or.inl rfl : payload.wrote payload.native)
  cases answer with
  | accepted =>
      refine ⟨posted, created _ _ (backed_post here payload _) ?_⟩
      intro attempts _
      exact ⟨⟨now.nextId, now.nextId, payload⟩, List.mem_append_right _ (List.mem_singleton_self _),
        rfl, rfl, Or.inl rfl⟩
  | lost =>
      exact ⟨posted, absent _ (backed_post here payload _)⟩
  | refused =>
      exact ⟨inv, absent now here⟩

theorem sound_createNote
    (knows : known payload)
    (clear : Clear world payload)
    {next : Option Nat → InlineProgram α}
    (held : ∀ item ∈ facts, Backed world item)
    (created : ∀ now note, (∀ item ∈ facts, Backed now item) →
      (∀ attempts, Backed now (payload, fallbackResult note attempts)) →
        Sound input post (next (some note)) now)
    (absent : ∀ now, (∀ item ∈ facts, Backed now item) → Sound input post (next none) now) :
    Sound input post (inlineAsk (.createNote payload) >>= next) world := by
  intro now rests inv
  refine ⟨trivial, ?_⟩
  intro answer _
  have here := backed_rest held rests
  have posted := inv.post knows (clear.rest rests) (Or.inr rfl : payload.wrote payload.fallback)
  cases answer with
  | accepted =>
      refine ⟨posted, created _ _ (backed_post here payload _) ?_⟩
      intro attempts _
      exact ⟨⟨now.nextId, now.nextId, payload⟩, List.mem_append_right _ (List.mem_singleton_self _),
        rfl, rfl, Or.inr rfl⟩
  | lost =>
      exact ⟨posted, absent _ (backed_post here payload _)⟩
  | refused =>
      exact ⟨inv, absent now here⟩

/-! ## The program -/

/-- A finished attempt is backed; one that gave up leaves the way clear. -/
def AttemptGoal (payload : InlinePayload) : AttemptEnd → InlineWorld → Prop
  | .ended result, now => Backed now (payload, result)
  | .gaveUp _ _, now => Clear now payload

theorem sound_reconcileAttempt
    (distinguished : Distinguished known)
    (knows : known payload)
    (attempt : Nat) (reason : InlineSkip)
    (held : ∀ item ∈ facts, Backed world item) :
    Sound input (EndsWith facts (AttemptGoal payload)) (reconcileAttempt payload attempt reason)
      world := by
  apply sound_findDiscussion distinguished knows held
  · exact fun now thread here backed => ⟨here, backed attempt⟩
  · exact fun now here clear => ⟨here, clear⟩

theorem sound_attemptOnce
    (distinguished : Distinguished known)
    (knows : known payload)
    (attempt : Nat) (reason : InlineSkip)
    (held : ∀ item ∈ facts, Backed world item)
    (clear : Clear world payload) :
    Sound input (EndsWith facts (AttemptGoal payload)) (attemptOnce payload attempt reason)
      world := by
  apply sound_locate held
  intro now located here rests
  cases located with
  | raises =>
      exact ⟨here, backed_failed _ _⟩
  | fileNotInDiff =>
      exact sound_reconcileAttempt distinguished knows attempt _ here
  | lineOutOfRange =>
      exact sound_reconcileAttempt distinguished knows attempt _ here
  | found =>
      apply sound_createDiscussion knows (clear.rest rests) here
      · exact fun after thread kept backed => ⟨kept, backed attempt⟩
      · exact fun after kept => sound_reconcileAttempt distinguished knows attempt reason kept

theorem sound_attemptNative
    (distinguished : Distinguished known)
    (knows : known payload)
    (attempt : Nat) (reason : InlineSkip) (retries : Nat)
    (held : ∀ item ∈ facts, Backed world item)
    (clear : Clear world payload) :
    Sound input (EndsWith facts (AttemptGoal payload)) (attemptNative payload attempt reason retries)
      world := by
  induction retries generalizing attempt reason world with
  | zero =>
      exact sound_attemptOnce distinguished knows attempt reason held clear
  | succ retries ih =>
      apply Outline.Safe.bind
      apply (sound_attemptOnce distinguished knows attempt reason held clear).mono
      intro end_ now ended
      cases end_ with
      | error message =>
          exact ended
      | ok value =>
          obtain ⟨here, goal⟩ := ended
          cases value with
          | ended result =>
              exact ⟨here, goal⟩
          | gaveUp reason attempts =>
              apply sound_refresh here
              intro after refreshed kept rests
              cases refreshed with
              | false =>
                  exact ⟨kept, goal.rest rests⟩
              | true =>
                  apply sound_findDiscussion distinguished knows kept
                  · exact fun last thread there backed => ⟨there, backed attempts⟩
                  · exact fun last there free => ih _ _ there free

theorem sound_publishFallback
    (distinguished : Distinguished known)
    (knows : known payload)
    (reason : InlineSkip) (attempts : Nat)
    (held : ∀ item ∈ facts, Backed world item)
    (clear : Clear world payload) :
    Sound input (EndsWith facts fun result now => Backed now (payload, result))
      (publishFallback payload reason attempts) world := by
  apply sound_findNote distinguished knows held
  · exact fun now note here backed => ⟨here, backed attempts⟩
  · intro now here rests
    apply sound_createNote knows (clear.rest rests) here
    · exact fun after note kept backed => ⟨kept, backed attempts⟩
    · intro after kept
      apply sound_findNote distinguished knows kept
      · exact fun last note there backed => ⟨there, backed attempts⟩
      · exact fun last there _ => ⟨there, backed_failed _ _⟩

theorem sound_publishFresh
    (distinguished : Distinguished known)
    (knows : known payload)
    (held : ∀ item ∈ facts, Backed world item)
    (clear : Clear world payload) :
    Sound input (EndsWith facts fun result now => Backed now (payload, result))
      (publishFresh env payload) world := by
  apply Outline.Safe.bind
  apply (sound_attemptNative distinguished knows _ _ _ held clear).mono
  intro end_ now ended
  cases end_ with
  | error message =>
      exact ended
  | ok value =>
      obtain ⟨here, goal⟩ := ended
      cases value with
      | ended result =>
          exact ⟨here, goal⟩
      | gaveUp reason attempts =>
          dsimp only
          split
          · exact sound_publishFallback distinguished knows reason attempts here goal
          · exact ⟨here, backed_failed _ _⟩

theorem sound_publishOne
    (distinguished : Distinguished known)
    (knows : known payload)
    (held : ∀ item ∈ facts, Backed world item) :
    Sound input (EndsWith facts fun result now => Backed now (payload, result))
      (publishOneInlineSuggestion env payload) world := by
  apply sound_findDiscussion distinguished knows held
  · exact fun now thread here backed => ⟨here, backed 0⟩
  · intro now here clear
    dsimp only
    split
    · apply sound_findNote distinguished knows here
      · exact fun after note kept backed => ⟨kept, backed 0⟩
      · exact fun after kept rests =>
          sound_publishFresh distinguished knows kept (clear.rest rests)
    · exact sound_publishFresh distinguished knows here clear

theorem sound_publishInlineSuggestions
    (distinguished : Distinguished known)
    (payloads : List InlinePayload)
    (knows : ∀ payload ∈ payloads, known payload)
    (held : ∀ item ∈ facts, Backed world item) :
    Sound input (EndsWith facts fun results now => ∀ item ∈ results, Backed now item)
      (publishInlineSuggestions env payloads) world := by
  induction payloads generalizing facts world with
  | nil =>
      refine ⟨held, ?_⟩
      intro item member
      cases member
  | cons payload rest ih =>
      apply Outline.Safe.bind
      apply (sound_publishOne distinguished (knows payload List.mem_cons_self) held).mono
      intro end_ now ended
      cases end_ with
      | error message =>
          exact ended
      | ok result =>
          obtain ⟨here, backed⟩ := ended
          have both : ∀ item ∈ (payload, result) :: facts, Backed now item := by
            intro item member
            rcases List.mem_cons.mp member with rfl | earlier
            · exact backed
            · exact here item earlier
          apply Outline.Safe.bind
          apply (ih (fun other member =>
            knows other (List.mem_cons_of_mem payload member)) both).mono
          intro end_ after ended
          cases end_ with
          | error message =>
              exact ended
          | ok results =>
              obtain ⟨kept, all⟩ := ended
              refine ⟨fun item member => kept item (List.mem_cons_of_mem _ member), ?_⟩
              intro item member
              rcases List.mem_cons.mp member with rfl | later
              · exact kept _ List.mem_cons_self
              · exact all item later

theorem sound_reportResults
    (results : List (InlinePayload × InlineResult))
    (held : ∀ item ∈ results, Backed world item) :
    Sound input (EndsWith [] fun _ _ => True) (reportResults results) world := by
  induction results generalizing world with
  | nil =>
      refine ⟨?_, trivial⟩
      intro item member
      cases member
  | cons item rest ih =>
      intro now rests inv
      refine ⟨trivial, ?_⟩
      intro answer _
      have here := backed_rest held rests
      refine ⟨inv.report (here item List.mem_cons_self), ?_⟩
      exact ih fun other member => here other (List.mem_cons_of_mem item member)

theorem sound_publish
    (distinguished : Distinguished known) :
    Sound input (fun _ _ => True) (publishInlineSuggestionsAsync env input.request) world := by
  apply Outline.Safe.bind
  have none : ∀ item ∈ ([] : List (InlinePayload × InlineResult)), Backed world item := by
    intro item member
    cases member
  apply (sound_publishInlineSuggestions distinguished _ input.within none).mono
  intro end_ now ended
  cases end_ with
  | error message =>
      exact trivial
  | ok results =>
      exact (sound_reportResults results ended.2).mono fun _ _ _ => trivial

end Program

theorem inlineOutline_valid
    (env : InlineEnv)
    {known : InlinePayload → Prop}
    (distinguished : Distinguished known) :
    (inlineOutline env known).Valid (fun _ _ _ => True) (fun _ _ _ => True) where
  stable := fun _ _ _ _ _ _ _ => trivial
  reports := fun _ _ _ _ => trivial
  lasting := fun _ _ _ _ _ _ => trivial
  starts := fun _ _ _ _ => sound_publish distinguished
  performs := by
    intro thread input call answer world _ _
    refine ⟨trivial, ?_⟩
    intro other different
    exact absurd (Subsingleton.elim other thread) different
  changes := by
    intro comment busy world inv plain
    refine ⟨InlineInv.comment inv comment plain, trivial, ?_⟩
    intro thread _
    obtain ⟨target, body⟩ := comment
    cases target with
    | none =>
        exact ⟨rfl, rfl⟩
    | some id =>
        exact ⟨rfl, rfl⟩

/-- No call has begun, and no note on the merge request carries a marker. -/
structure InlineBegins
    {env : InlineEnv}
    {known : InlinePayload → Prop}
    (state : State Unit InlineCall.Reply InlineWorld (InlineInput env known) Unit) : Prop where
  idle : ∀ thread, state.active thread = none
  ended : state.ended = []
  threadIds : (state.world.threads.map (·.id)).Nodup
  threadBound : ∀ thread ∈ state.world.threads, thread.id < state.world.nextId
  unmarked : ∀ thread ∈ state.world.threads, ∀ note ∈ thread.notes, Unmarked known note.body
  posts : state.world.posts = []
  reports : state.world.reports = []

theorem InlineBegins.inv
    {env : InlineEnv} {known : InlinePayload → Prop}
    {state : State Unit InlineCall.Reply InlineWorld (InlineInput env known) Unit}
    (begins : InlineBegins state) :
    InlineInv known state.world where
  threadIds := begins.threadIds
  threadBound := begins.threadBound
  sources := fun thread inside note member => Or.inl (begins.unmarked thread inside note member)
  posted := by simp [begins.posts]
  discussionIds := by simp [begins.posts]
  noteIds := by simp [begins.posts]
  noteBound := by simp [begins.posts]
  once := by simp [begins.posts]
  reported := by simp [begins.reports]

/-- When markers tell the payloads apart, only identical suggestions are reported under one thread,
under a note with their body, and are posted again only after a failed lookup. -/
theorem suggestions_have_their_own_threads
    {env : InlineEnv}
    {known : InlinePayload → Prop}
    (distinguished : Distinguished known)
    {start final : State Unit InlineCall.Reply InlineWorld (InlineInput env known) Unit}
    (begins : InlineBegins start)
    (run : (inlineMachine env known).Runs start final) :
    (∀ first ∈ final.world.reports, ∀ second ∈ final.world.reports,
      first.2.status ≠ .failed → second.2.status ≠ .failed →
      (first.2.discussionId.isSome = true ∧ first.2.discussionId = second.2.discussionId) ∨
        first.2.noteId = second.2.noteId →
      first.1.identical second.1) ∧
    (∀ report ∈ final.world.reports, report.2.status ≠ .failed →
      ∃ thread ∈ final.world.threads,
        (report.2.discussionId = some thread.id ∨ report.2.discussionId = none) ∧
        ∃ note ∈ thread.notes, report.2.noteId = some note.id ∧ report.1.wrote note.body) ∧
    final.world.posts.Pairwise fun first second =>
      first.payload.identical second.payload → second.payload.marker ∈ final.world.missed := by
  have holds := Outline.Holds.of_runs (inlineOutline_valid env distinguished) run begins.inv
    begins.idle begins.ended
  have inv : InlineInv known final.world := holds.inv
  refine ⟨?_, ?_, inv.once⟩
  · intro first inFirst second inSecond firstPublished secondPublished shared
    obtain ⟨left, leftMember, leftPayload, leftNote, leftDiscussion⟩ :=
      inv.reported first inFirst firstPublished
    obtain ⟨right, rightMember, rightPayload, rightNote, rightDiscussion⟩ :=
      inv.reported second inSecond secondPublished
    have same : left = right := by
      rcases shared with ⟨present, discussion⟩ | note
      · rcases leftDiscussion with named | unnamed
        · rcases rightDiscussion with other | absent
          · exact List.inj_on_of_nodup_map inv.discussionIds leftMember rightMember
              (Option.some.inj (named.symm.trans (discussion.trans other)))
          · rw [discussion, absent] at present
            cases present
        · rw [unnamed] at present
          cases present
      · exact List.inj_on_of_nodup_map inv.noteIds leftMember rightMember
          (Option.some.inj (leftNote.symm.trans (note.trans rightNote)))
    rw [← leftPayload, ← rightPayload, same]
    exact ⟨rfl, rfl, rfl, rfl, rfl⟩
  · intro report member published
    obtain ⟨post, inPosts, payload, note, discussion⟩ := inv.reported report member published
    obtain ⟨_, thread, inside, id, body, head, wrote⟩ := inv.posted post inPosts
    refine ⟨thread, inside, ?_, _, List.mem_of_head? head, note, payload ▸ wrote⟩
    rw [id]
    exact discussion

namespace InlineSample

def env : InlineEnv where
  project := "g/p"
  mrIid := "7"
  renderInlineBody := fun suggestion _ =>
    suggestion.content ++ "\n```suggestion\n" ++ suggestion.improvedCode ++ "\n```"
  renderFallbackBody := (·.content)
  fallbackEnabled := true
  retryLimit := 1

def first : InlineSuggestion where
  relevantFile := "a.py"
  linesStart := 1
  linesEnd := 2
  existingCode := "x = 1"
  improvedCode := "x = 2"
  content := "wrong start"

def second : InlineSuggestion where
  relevantFile := "b.py"
  linesStart := 5
  linesEnd := 5
  existingCode := "return y"
  improvedCode := "return x"
  content := "wrong name"

def sha : String := "01234567"

/-- Every call of GitLab succeeds. -/
def smooth : (call : InlineCall) → call.Answer
  | .findDiscussion _ => true
  | .findNote _ => true
  | .locate => .found
  | .createDiscussion _ => .accepted
  | .refresh => true
  | .createNote _ => .accepted
  | .report _ _ => ()

def start (known : InlinePayload → Prop) :
    State Unit InlineCall.Reply InlineWorld (InlineInput env known) Unit where
  world := ⟨[], 1, [], [], []⟩
  active := fun _ => none
  ended := []

theorem start_begins (known : InlinePayload → Prop) : InlineBegins (start known) where
  idle := fun _ => rfl
  ended := rfl
  threadIds := List.nodup_nil
  threadBound := by simp [start]
  unmarked := by simp [start]
  posts := rfl
  reports := rfl

/-- A call on the sample head that makes some of its calls. -/
def steps
    {known : InlinePayload → Prop}
    (input : InlineInput env known)
    (count : Nat) :
    List (Interruptible.Op Unit InlineCall.Answer (InlineInput env known) MrComment) :=
  .start () input :: List.replicate count (.advance () smooth)

/-- The state after some steps. -/
def after
    (known : InlinePayload → Prop)
    (ops : List (Interruptible.Op Unit InlineCall.Answer (InlineInput env known) MrComment)) :
    State Unit InlineCall.Reply InlineWorld (InlineInput env known) Unit :=
  ops.foldl (inlineMachine env known).step (start known)

/-- A batch of the first suggestion. -/
def review : InlineRequest := ⟨sha, [first]⟩

/-- The payload of that batch. -/
def knownReview (payload : InlinePayload) : Prop :=
  payload ∈ env.payloads review

theorem knownReview_eq {payload : InlinePayload} (knows : knownReview payload) :
    payload = env.payload (env.runId sha) first 1 :=
  List.mem_singleton.mp knows

theorem knownReview_distinguished : Distinguished knownReview where
  marked := by
    intro payload knows
    rw [knownReview_eq knows]
    decide +kernel
  apart := by
    intro left right knowsLeft knowsRight _
    rw [knownReview_eq knowsLeft, knownReview_eq knowsRight]
  same := by
    intro left right knowsLeft knowsRight _
    rw [knownReview_eq knowsLeft, knownReview_eq knowsRight]

/-- The first call crashes after it has posted the suggestion; a second one follows. -/
def interrupted :
    List (Interruptible.Op Unit InlineCall.Answer (InlineInput env knownReview) MrComment) :=
  steps ⟨review, fun _ => id⟩ 4 ++ [.crash ()] ++ steps ⟨review, fun _ => id⟩ 3

/-- The first review and a second batch on the same head. -/
def renumbered :
    List (Interruptible.Op Unit InlineCall.Answer (InlineInput env fun _ => True) MrComment) :=
  steps ⟨review, fun _ _ => trivial⟩ 6 ++ steps ⟨⟨sha, [second]⟩, fun _ _ => trivial⟩ 3

/-- Steps of the publisher itself. -/
def isCall
    {known : InlinePayload → Prop} :
    Interruptible.Op Unit InlineCall.Answer (InlineInput env known) MrComment → Bool
  | .change _ => false
  | _ => true

theorem runs_after
    {known : InlinePayload → Prop}
    (ops : List (Interruptible.Op Unit InlineCall.Answer (InlineInput env known) MrComment))
    (quiet : ops.all isCall = true) :
    (inlineMachine env known).Runs (start known) (after known ops) := by
  apply TransitionSystem.Reaches.of_follows
  generalize start known = state
  induction ops generalizing state with
  | nil =>
      trivial
  | cons op rest ih =>
      rw [List.all_cons, Bool.and_eq_true] at quiet
      refine ⟨?_, ih quiet.2 _⟩
      cases op with
      | start thread input =>
          trivial
      | advance thread answer =>
          exact fun _ _ _ _ => trivial
      | crash thread =>
          trivial
      | change comment =>
          exact absurd quiet.1 Bool.false_ne_true

end InlineSample

open InlineSample in
theorem interrupted_review_reuses_thread :
    (after knownReview interrupted).world.reports.map (fun report =>
      (report.2.status, report.2.discussionId)) = [(.published, some 1)] ∧
      (after knownReview interrupted).world.posts.Pairwise fun left right =>
        left.payload.identical right.payload →
          right.payload.marker ∈ (after knownReview interrupted).world.missed := by
  refine ⟨by decide +kernel, ?_⟩
  have run := runs_after interrupted rfl
  exact (suggestions_have_their_own_threads knownReview_distinguished (start_begins _) run).2.2

open InlineSample in
/--
A second batch on the same head starts its numbers again: its first suggestion
is reported under the discussion of another file and is posted nowhere.
-/
theorem renumbered_batch_takes_over_thread :
    let final := after (fun _ => True) renumbered
    (inlineMachine env fun _ => True).Runs (start fun _ => True) final ∧
      final.world.reports.map (fun report =>
        (report.1.suggestion.relevantFile, report.2.status, report.2.discussionId)) =
          [("a.py", .published, some 1), ("b.py", .published, some 1)] ∧
      final.world.threads.map (fun thread => thread.notes.map (·.body)) =
        [[(env.payload (env.runId sha) first 1).native]] ∧
      (env.payload (env.runId sha) second 1).native ≠
        (env.payload (env.runId sha) first 1).native := by
  intro final
  refine ⟨runs_after renumbered rfl, ?_⟩
  decide +kernel

end MrAgent
