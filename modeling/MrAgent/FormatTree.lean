import MrAgent.KeySort
import MrAgent.UnquotedText

namespace MrAgent

/-!
# The tree id of a format commit

GitLab lists the entries of a directory without the id of the directory, which
is computed again: the entries are sorted as Git sorts them, written as Git
writes a tree, and hashed.
-/

/-- An entry as `repository_tree` lists it. -/
structure TreeEntry where
  name : String
  type : String
  mode : String
  id : String
deriving DecidableEq

/-- The bytes of a text in UTF-8. -/
def utf8Bytes (text : String) : List UInt8 :=
  text.toUTF8.data.toList

/-- `PRFixFormat._git_tree_sort_key` -/
def gitTreeSortKey (entry : TreeEntry) : List Nat :=
  (utf8Bytes entry.name).map UInt8.toNat ++
    if entry.type = "tree" then ['/'.toNat] else [0]

/-- `bytes.fromhex`; blanks may stand between the bytes. -/
def bytesFromHex : List Char → Option (List UInt8)
  | [] => some []
  | [c] => if c.isWhitespace || c.toNat ∈ [11, 12] then some [] else none
  | high :: low :: rest =>
    if high.isWhitespace || high.toNat ∈ [11, 12] then bytesFromHex (low :: rest)
    else do
      let byte := (← hexByteDigit high) * 16 + (← hexByteDigit low)
      return UInt8.ofNat byte :: (← bytesFromHex rest)

/-- The mode of an entry as the tree object has it. -/
def TreeEntry.writtenMode (entry : TreeEntry) : String :=
  if entry.type = "tree" then
    let mode := String.ofList (entry.mode.toList.dropWhile (· = '0'))
    if mode = "" then "0" else mode
  else entry.mode

/-- The bytes of an entry. -/
def TreeEntry.body (entry : TreeEntry) : Option (List UInt8) :=
  (bytesFromHex entry.id.toList).map fun id =>
    utf8Bytes (entry.writtenMode ++ " " ++ entry.name) ++ 0 :: id

/-- `tree {len(body)}\0` -/
def treeHeader (size : Nat) : List UInt8 :=
  utf8Bytes ("tree " ++ toString size) ++ [0]

/-- `PRFixFormat._commit_tree_sha`, given the tree id that the commit reports. -/
def commitTreeSha (sha1 : List UInt8 → String) (reported : String) (entries : List TreeEntry) :
    Option String :=
  if reported.length = 40 then some reported
  else do
    let body ← (KeySort.sortedBy gitTreeSortKey entries).mapM TreeEntry.body
    return sha1 (treeHeader body.flatten.length ++ body.flatten)

/-! ## Git's trees -/

/-- What an entry of a tree object is. -/
inductive GitKind where
  | tree
  | file
  | executable
  | symlink
  | submodule
deriving DecidableEq

/-- The mode of an entry. -/
def GitKind.mode : GitKind → Nat
  | tree => 0o40000
  | file => 0o100644
  | executable => 0o100755
  | symlink => 0o120000
  | submodule => 0o160000

/-- A name without a NUL and a slash. -/
def AcceptedName (name : String) : Prop :=
  ∀ c ∈ utf8Bytes name, c ≠ 0 ∧ c.toNat ≠ '/'.toNat
deriving Decidable

/-- An entry of a tree object. -/
structure GitEntry where
  name : String
  kind : GitKind
  id : List UInt8
  plain : AcceptedName name

/-- The name by which Git sorts: that of a directory is followed by a slash. -/
def canonicalName (name : String) (directory : Bool) : List Nat :=
  (utf8Bytes name).map UInt8.toNat ++ if directory then ['/'.toNat] else []

/-- The order of the entries of a tree. -/
def GitEntry.before (first second : GitEntry) : Prop :=
  canonicalName first.name (first.kind = .tree) < canonicalName second.name (second.kind = .tree)
deriving Decidable

/-- The object that Git hashes for a tree. -/
def treeObject (tree : List GitEntry) : List UInt8 :=
  let body := tree.flatMap fun entry =>
    utf8Bytes (String.ofList (Nat.toDigits 8 entry.kind.mode)) ++ utf8Bytes " " ++
      utf8Bytes entry.name ++ 0 :: entry.id
  utf8Bytes "tree " ++ utf8Bytes (toString body.length) ++ 0 :: body

/-- `bytes.hex` -/
def hexText (bytes : List UInt8) : List Char :=
  bytes.flatMap fun byte => [Nat.digitChar (byte.toNat / 16), Nat.digitChar (byte.toNat % 16)]

/-- How GitLab lists an entry: its mode has six digits. -/
def GitEntry.listed (entry : GitEntry) : TreeEntry where
  name := entry.name
  type := match entry.kind with
    | .tree => "tree"
    | .submodule => "commit"
    | _ => "blob"
  mode := String.ofList (List.leftpad 6 '0' (Nat.toDigits 8 entry.kind.mode))
  id := String.ofList (hexText entry.id)

/-! ## The order -/

theorem append_lt_append_iff
    {α : Type}
    [LinearOrder α]
    {first second firstEnd secondEnd : List α}
    (firstBelow : ∀ e ∈ firstEnd, ∀ c ∈ second, e < c)
    (secondBelow : ∀ e ∈ secondEnd, ∀ c ∈ first, e < c)
    (apart : first ≠ second) :
    first ++ firstEnd < second ++ secondEnd ↔ first < second := by
  induction first generalizing second with
  | nil =>
      cases second with
      | nil => exact absurd rfl apart
      | cons d more =>
          refine iff_of_true ?_ (List.nil_lt_cons d more)
          cases firstEnd with
          | nil => exact List.nil_lt_cons _ _
          | cons e rest =>
              exact List.cons_lt_cons_iff.mpr
                (Or.inl (firstBelow e List.mem_cons_self d List.mem_cons_self))
  | cons c rest ih =>
      cases second with
      | nil =>
          refine iff_of_false ?_ (List.not_lt_nil _)
          cases secondEnd with
          | nil => exact List.not_lt_nil _
          | cons e more =>
              have below := secondBelow e List.mem_cons_self c List.mem_cons_self
              rw [List.cons_append, List.nil_append, List.cons_lt_cons_iff]
              rintro (above | ⟨same, _⟩)
              · exact lt_asymm above below
              · exact below.ne' same
      | cons d more =>
          rw [List.cons_append, List.cons_append, List.cons_lt_cons_iff, List.cons_lt_cons_iff]
          refine or_congr_right (and_congr_right fun same => ?_)
          refine ih ?_ ?_ ?_
          · exact fun e member other inside =>
              firstBelow e member other (List.mem_cons_of_mem d inside)
          · exact fun e member other inside =>
              secondBelow e member other (List.mem_cons_of_mem c inside)
          · rintro rfl
            exact apart (by rw [same])

theorem utf8Bytes_append
    (first second : String) :
    utf8Bytes (first ++ second) = utf8Bytes first ++ utf8Bytes second := by
  change (first ++ second).toByteArray.data.toList = _
  rw [String.toByteArray_append, ByteArray.toList_data_append]
  rfl

variable {first second : String}

theorem utf8Bytes_inj :
    utf8Bytes first = utf8Bytes second ↔ first = second := by
  constructor
  · intro same
    exact String.toByteArray_inj.mp (ByteArray.ext (Array.toList_inj.mp same))
  · rintro rfl
    rfl

variable {name : String}

theorem slash_notMem_of_plain
    (plain : AcceptedName name) :
    '/'.toNat ∉ (utf8Bytes name).map UInt8.toNat := by
  intro member
  obtain ⟨c, inName, same⟩ := List.mem_map.mp member
  exact (plain c inName).2 same

theorem pos_of_mem_canonicalName
    {directory : Bool}
    {value : Nat}
    (plain : AcceptedName name)
    (member : value ∈ canonicalName name directory) :
    0 < value := by
  rcases List.mem_append.mp member with inName | slash
  · obtain ⟨c, inBytes, rfl⟩ := List.mem_map.mp inName
    exact Nat.pos_of_ne_zero fun zero => (plain c inBytes).1 (UInt8.toNat_inj.mp zero)
  · cases directory with
    | true =>
        rw [List.mem_singleton.mp slash]
        decide
    | false => cases slash

theorem canonicalName_ne
    {directory other : Bool}
    (plain : AcceptedName first)
    (otherPlain : AcceptedName second)
    (apart : first ≠ second) :
    canonicalName first directory ≠ canonicalName second other := by
  intro same
  have bytes : (utf8Bytes first).map UInt8.toNat ≠ (utf8Bytes second).map UInt8.toNat := fun equal =>
    apart (utf8Bytes_inj.mp (List.map_injective_iff.mpr (fun _ _ => UInt8.toNat_inj.mp) equal))
  cases directory <;> cases other <;> simp only [canonicalName, Bool.false_eq_true, if_true, if_false,
    List.append_nil] at same
  · exact bytes same
  · exact slash_notMem_of_plain plain (same ▸ List.mem_append_right _ List.mem_cons_self)
  · exact slash_notMem_of_plain otherPlain (same ▸ List.mem_append_right _ List.mem_cons_self)
  · exact bytes (List.append_cancel_right same)

/-- The name of a listed entry as Git sorts it. -/
def TreeEntry.canonical (entry : TreeEntry) : List Nat :=
  canonicalName entry.name (entry.type = "tree")

theorem gitTreeSortKey_eq
    (entry : TreeEntry) :
    gitTreeSortKey entry = entry.canonical ++ if entry.type = "tree" then [] else [0] := by
  by_cases directory : entry.type = "tree" <;>
    simp [gitTreeSortKey, TreeEntry.canonical, canonicalName, directory]

theorem gitTreeSortKey_lt_iff
    {first second : TreeEntry}
    (plain : AcceptedName first.name)
    (otherPlain : AcceptedName second.name)
    (apart : first.name ≠ second.name) :
    gitTreeSortKey first < gitTreeSortKey second ↔ first.canonical < second.canonical := by
  have below : ∀ {entry : TreeEntry} {name : String} {directory : Bool}, AcceptedName name →
      ∀ e ∈ (if entry.type = "tree" then [] else [0] : List Nat),
        ∀ c ∈ canonicalName name directory, e < c := by
    intro entry name directory plain e member c inside
    split at member
    · cases member
    · rw [List.mem_singleton.mp member]
      exact pos_of_mem_canonicalName plain inside
  rw [gitTreeSortKey_eq, gitTreeSortKey_eq]
  exact append_lt_append_iff (below otherPlain) (below plain)
    (canonicalName_ne plain otherPlain apart)

/-! ## The tree id -/

theorem hexByteDigit_digitChar :
    ∀ digit < 16, hexByteDigit (Nat.digitChar digit) = some digit ∧
      (Nat.digitChar digit).isWhitespace = false ∧
      (Nat.digitChar digit).toNat ∉ [11, 12] := by
  decide

theorem bytesFromHex_hexText
    (bytes : List UInt8) :
    bytesFromHex (hexText bytes) = some bytes := by
  induction bytes with
  | nil => rfl
  | cons byte rest ih =>
      have bound : byte.toNat < 256 := byte.toNat_lt
      have value : byte.toNat / 16 * 16 + byte.toNat % 16 = byte.toNat := by omega
      obtain ⟨high, noBlank, noFeed⟩ := hexByteDigit_digitChar (byte.toNat / 16) (by omega)
      obtain ⟨low, _⟩ := hexByteDigit_digitChar (byte.toNat % 16) (by omega)
      rw [hexText, List.flatMap_cons, List.cons_append, List.singleton_append, bytesFromHex,
        if_neg (by simp [noBlank, noFeed]), high, low]
      change (do return UInt8.ofNat _ :: (← bytesFromHex (hexText rest))) = _
      rw [ih]
      simp only [Option.bind_eq_bind, Option.bind_some, Option.pure_def, value, UInt8.ofNat_toNat]

variable (entry : GitEntry)

theorem writtenMode_listed :
    entry.listed.writtenMode = String.ofList (Nat.toDigits 8 entry.kind.mode) := by
  have unnamed : ∀ kind, (GitEntry.mk "" kind [] (by unfold AcceptedName; decide)).listed.writtenMode =
      String.ofList (Nat.toDigits 8 kind.mode) := by
    intro kind
    cases kind <;> decide
  exact unnamed entry.kind

theorem body_listed :
    entry.listed.body = some (utf8Bytes (String.ofList (Nat.toDigits 8 entry.kind.mode)) ++
      utf8Bytes " " ++ utf8Bytes entry.name ++ 0 :: entry.id) := by
  rw [TreeEntry.body, writtenMode_listed, utf8Bytes_append, utf8Bytes_append]
  change Option.map _ (bytesFromHex (String.ofList (hexText entry.id)).toList) = _
  rw [String.toList_ofList, bytesFromHex_hexText]
  rfl

theorem canonical_listed :
    entry.listed.canonical = canonicalName entry.name (entry.kind = .tree) := by
  obtain ⟨name, kind, id, plain⟩ := entry
  cases kind <;> rfl

theorem sortedBy_listing
    {tree : List GitEntry}
    {entries : List TreeEntry}
    (canonical : tree.Pairwise GitEntry.before)
    (distinct : (entries.map TreeEntry.name).Nodup)
    (listing : entries.Perm (tree.map GitEntry.listed)) :
    KeySort.sortedBy gitTreeSortKey entries = tree.map GitEntry.listed := by
  have ordered : (tree.map GitEntry.listed).Pairwise
      fun first second => gitTreeSortKey first < gitTreeSortKey second := by
    have names : tree.Pairwise fun first second => first.listed.name ≠ second.listed.name := by
      have nodup := (listing.map TreeEntry.name).nodup_iff.mp distinct
      rwa [List.Nodup, List.pairwise_map, List.pairwise_map] at nodup
    rw [List.pairwise_map]
    refine canonical.imp₂ (fun first second before apart => ?_) names
    have below : first.listed.canonical < second.listed.canonical := by
      rw [canonical_listed, canonical_listed]
      exact before
    exact (gitTreeSortKey_lt_iff first.plain second.plain apart).mpr below
  refine KeySort.eq_of_sorted ?_ ((KeySort.sortedBy_perm _ _).trans listing)
    (KeySort.sortedBy_pairwise _ _) (ordered.imp le_of_lt)
  have keys : ((tree.map GitEntry.listed).map gitTreeSortKey).Nodup := by
    rw [List.Nodup, List.pairwise_map]
    exact ordered.imp ne_of_lt
  intro early earlyMember late lateMember same
  exact List.inj_on_of_nodup_map keys (listing.subset (KeySort.mem_sortedBy.mp earlyMember))
    lateMember same

/--
The key sorts entries with different names as Git sorts them, so that the id
computed from any listing of a tree is the id of Git's object.
-/
theorem tree_id_is_that_of_git
    (sha1 : List UInt8 → String)
    (entries : List TreeEntry)
    (plain : ∀ entry ∈ entries, AcceptedName entry.name)
    (distinct : (entries.map TreeEntry.name).Nodup) :
    (KeySort.sortedBy gitTreeSortKey entries).Pairwise
        (fun first second => first.canonical < second.canonical) ∧
      ∀ (reported : String) (tree : List GitEntry), reported.length ≠ 40 →
        tree.Pairwise GitEntry.before → entries.Perm (tree.map GitEntry.listed) →
          commitTreeSha sha1 reported entries = some (sha1 (treeObject tree)) := by
  have perm := KeySort.sortedBy_perm gitTreeSortKey entries
  constructor
  · have names : (KeySort.sortedBy gitTreeSortKey entries).Pairwise
        fun first second => first.name ≠ second.name := by
      have nodup := (perm.map TreeEntry.name).nodup_iff.mpr distinct
      rwa [List.Nodup, List.pairwise_map] at nodup
    have sorted := (KeySort.sortedBy_pairwise gitTreeSortKey entries).and names
    refine sorted.imp_of_mem fun {first second} firstMember secondMember order => ?_
    have firstPlain := plain first (perm.subset firstMember)
    have secondPlain := plain second (perm.subset secondMember)
    refine lt_of_le_of_ne (not_lt.mp ?_) (canonicalName_ne firstPlain secondPlain order.2)
    intro above
    exact order.1.not_gt ((gitTreeSortKey_lt_iff secondPlain firstPlain order.2.symm).mpr above)
  · intro reported tree short canonical listing
    have bodies : ∀ tree : List GitEntry, (tree.map GitEntry.listed).mapM TreeEntry.body =
        some (tree.map fun entry => utf8Bytes (String.ofList (Nat.toDigits 8 entry.kind.mode)) ++
          utf8Bytes " " ++ utf8Bytes entry.name ++ 0 :: entry.id) := by
      intro tree
      induction tree with
      | nil => rfl
      | cons entry rest ih =>
          rw [List.map_cons, List.mapM_cons, body_listed, ih]
          rfl
    rw [commitTreeSha, if_neg short, sortedBy_listing canonical distinct listing, bodies]
    simp only [Option.bind_eq_bind, Option.bind_some, Option.pure_def, treeHeader, treeObject,
      utf8Bytes_append, ← List.flatMap_def, List.append_assoc, List.singleton_append]

namespace TreeSample

def blobId : List UInt8 :=
  [0xe6, 0x9d, 0xe2, 0x9b, 0xb2, 0xd1, 0xd6, 0x43, 0x4b, 0x8b, 0x29, 0xae, 0x77, 0x5a, 0xd8, 0xc2,
    0xe4, 0x8c, 0x53, 0x91]

def treeId : List UInt8 :=
  [0x4b, 0x82, 0x5d, 0xc6, 0x42, 0xcb, 0x6e, 0xb9, 0xa0, 0x60, 0xe5, 0x4b, 0xf8, 0xd6, 0x92, 0x88,
    0xfb, 0xee, 0x49, 0x04]

/-- A file and a directory that share the beginning of their names. -/
def tree : List GitEntry :=
  [⟨"lib.c", .file, blobId, by decide⟩, ⟨"lib", .tree, treeId, by decide⟩]

end TreeSample

theorem directory_follows_file :
    commitTreeSha (fun _ => "d90347dd87eac7e62d572bd294a36465fcc570ef") ""
      (TreeSample.tree.map GitEntry.listed).reverse =
        some "d90347dd87eac7e62d572bd294a36465fcc570ef" :=
  (tree_id_is_that_of_git _ _ (by decide +kernel) (by decide +kernel)).2 "" TreeSample.tree
    (by decide) (by decide +kernel) (List.reverse_perm _)

end MrAgent
