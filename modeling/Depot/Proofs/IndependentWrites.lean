import Depot.Proofs.Refusals
import Depot.Proofs.Targets

/-! Writes that keep apart. An upload puts its content and its tags on one version of a name, a tag
request one tag; both take these tags off the other versions of the name, also off the one that the
other writes to. Where the two versions differ and no tag is in both writes, the order of the writes
shows in nothing but times of creation: not in the tag lists, nor in their order. -/
namespace Depot

namespace Version

variable {v : Version} {name : QualifiedName} {hash other : String} {tags others : List String}

theorem newTags_swept (disjoint : ∀ tag ∈ tags, tag ∉ others) (had : List String) :
    newTags (had.filter (· ∉ others)) tags = newTags had tags := by
  have sameMissing : tags.filter (· ∉ had.filter (· ∉ others)) = tags.filter (· ∉ had) := by
    refine List.filter_congr fun tag sent => ?_
    simp [disjoint tag sent]
  rw [newTags, newTags, sameMissing]

/-- What a write puts on its version, no independent write takes off. -/
theorem filter_newTags (disjoint : ∀ tag ∈ tags, tag ∉ others) (had : List String) :
    (newTags had tags).filter (· ∉ others) = newTags had tags := by
  refine List.filter_eq_self.mpr fun tag new => ?_
  have sent : tag ∈ tags := by
    simp only [newTags, List.mem_eraseDups, List.mem_filter] at new
    exact new.1
  simpa using disjoint tag sent

theorem retaggedAll_target_sibling (apart : hash ≠ other) (disjoint : ∀ tag ∈ tags, tag ∉ others)
    (named : v.name = name) (keyed : v.hash = hash) :
    (v.retaggedAll name hash tags).retaggedAll name other others =
      (v.retaggedAll name other others).retaggedAll name hash tags := by
  have unkeyed : v.hash ≠ other := keyed ▸ apart
  rw [retaggedAll_target named keyed, retaggedAll_sibling named unkeyed,
    retaggedAll_sibling (by exact named) (by exact unkeyed),
    retaggedAll_target (by exact named) (by exact keyed)]
  simp only [List.filter_append, filter_newTags disjoint, newTags_swept disjoint]

theorem retaggedAll_untagged (named : v.name = name) (apart : v.hash ≠ hash)
    (untagged : v.tags = []) (tags : List String) : v.retaggedAll name hash tags = v := by
  rw [retaggedAll_sibling named apart, untagged, List.filter_nil, ← untagged]

theorem retaggedAll_other (unnamed : v.name ≠ name) (hash : String) (tags : List String) :
    v.retaggedAll name hash tags = v := by
  induction tags with
  | nil => rfl
  | cons tag tags ih =>
    have first : v.retagged name hash tag = v := by simp [retagged, unnamed]
    rw [retaggedAll_cons, first, ih]

theorem retaggedAll_comm (apart : hash ≠ other) (disjoint : ∀ tag ∈ tags, tag ∉ others)
    (v : Version) : (v.retaggedAll name hash tags).retaggedAll name other others =
      (v.retaggedAll name other others).retaggedAll name hash tags := by
  have disjoint' : ∀ tag ∈ others, tag ∉ tags := fun tag inOthers inTags =>
    disjoint tag inTags inOthers
  by_cases named : v.name = name
  · by_cases keyed : v.hash = hash
    · exact retaggedAll_target_sibling apart disjoint named keyed
    · by_cases otherKeyed : v.hash = other
      · exact (retaggedAll_target_sibling apart.symm disjoint' named otherKeyed).symm
      · simp only [retaggedAll_sibling, named, keyed, otherKeyed, ne_eq, not_false_eq_true,
          List.filter_filter, Bool.and_comm]
  · simp only [retaggedAll_other, named, ne_eq, not_false_eq_true]

end Version

namespace Versions

open Version (Keeping Timeless)

variable {versions : List Version} {a b seed : Version} {name : QualifiedName} {hash : String}

/-- Makes sure that a version is there; one that is there already stays as it is. -/
def ensure (seed : Version) (versions : List Version) : List Version :=
  match lookup versions seed.name seed.hash with
  | some _ => versions
  | none => insert seed versions

theorem ensure_present (present : (lookup versions seed.name seed.hash).isSome) :
    ensure seed versions = versions := by
  obtain ⟨v, found⟩ := Option.isSome_iff_exists.mp present
  simp only [ensure, found]

theorem ensure_absent (absent : lookup versions seed.name seed.hash = none) :
    ensure seed versions = insert seed versions := by
  simp only [ensure, absent]

theorem map_ensure {change : Version → Version} (keeping : Keeping change) (seed : Version)
    (versions : List Version) :
    (ensure seed versions).map change = ensure (change seed) (versions.map change) := by
  have looked : lookup (versions.map change) (change seed).name (change seed).hash =
      (lookup versions seed.name seed.hash).map change := by
    rw [lookup_map keeping, keeping.name, keeping.hash]
  cases found : lookup versions seed.name seed.hash with
  | none =>
    rw [found, Option.map_none] at looked
    rw [ensure_absent found, ensure_absent looked, map_insert keeping]
  | some v =>
    rw [found, Option.map_some] at looked
    rw [ensure_present (by simp [found]), ensure_present (by simp [looked])]

theorem insert_before (less : Version.compare a b = .lt) (rest : List Version) :
    insert a (b :: rest) = a :: b :: rest := by
  simp [insert, less]

theorem insert_behind (notLess : Version.compare a b ≠ .lt) (rest : List Version) :
    insert a (b :: rest) = b :: insert a rest := by
  simp [insert, Ordering.isLT_iff_eq_lt, notLess]

theorem insert_lt_comm (less : Version.compare a b = .lt) (versions : List Version) :
    insert a (insert b versions) = insert b (insert a versions) := by
  have notGreater : Version.compare b a ≠ .lt := by
    rw [Std.OrientedCmp.gt_iff_lt.mpr less]
    decide
  induction versions with
  | nil => rw [insert, insert, insert_before less, insert_behind notGreater, insert]
  | cons w rest ih =>
    by_cases lessB : Version.compare b w = .lt
    · have lessA : Version.compare a w = .lt := Std.TransCmp.lt_trans less lessB
      rw [insert_before lessB, insert_before less, insert_before lessA, insert_behind notGreater,
        insert_before lessB]
    · rw [insert_behind lessB]
      by_cases lessA : Version.compare a w = .lt
      · rw [insert_before lessA, insert_before lessA, insert_behind notGreater,
          insert_behind lessB]
      · rw [insert_behind lessA, insert_behind lessA, insert_behind lessB, ih]

theorem ensure_comm (apart : ¬ (a.name = b.name ∧ a.hash = b.hash)) (versions : List Version) :
    ensure a (ensure b versions) = ensure b (ensure a versions) := by
  have apart' : ¬ (b.name = a.name ∧ b.hash = a.hash) := fun ⟨sameName, sameHash⟩ =>
    apart ⟨sameName.symm, sameHash.symm⟩
  have lookA (rest : List Version) :
      lookup (insert b rest) a.name a.hash = lookup rest a.name a.hash := lookup_insert_other apart'
  have lookB (rest : List Version) :
      lookup (insert a rest) b.name b.hash = lookup rest b.name b.hash := lookup_insert_other apart
  have inserted : insert a (insert b versions) = insert b (insert a versions) := by
    cases order : Version.compare a b with
    | lt => exact insert_lt_comm order versions
    | eq => exact absurd ((Version.compare_eq_iff a b).mp order) apart
    | gt => exact (insert_lt_comm (Std.OrientedCmp.gt_iff_lt.mp order) versions).symm
  simp only [ensure]
  cases foundA : lookup versions a.name a.hash <;> cases foundB : lookup versions b.name b.hash <;>
    simp only [lookA, lookB, foundA, foundB, inserted]

def write (seed : Version) (tags : List String) (versions : List Version) : List Version :=
  (ensure seed versions).map fun v => v.retaggedAll seed.name seed.hash tags

theorem write_comm {tagsA tagsB : List String} (sameName : a.name = b.name)
    (apart : a.hash ≠ b.hash) (untaggedA : a.tags = []) (untaggedB : b.tags = [])
    (disjoint : ∀ tag ∈ tagsA, tag ∉ tagsB)
    (versions : List Version) :
    write b tagsB (write a tagsA versions) = write a tagsA (write b tagsB versions) := by
  let retagA (v : Version) : Version := v.retaggedAll a.name a.hash tagsA
  let retagB (v : Version) : Version := v.retaggedAll b.name b.hash tagsB
  have keepingA : Keeping retagA := Version.keeping_retaggedAll a.name a.hash tagsA
  have keepingB : Keeping retagB := Version.keeping_retaggedAll b.name b.hash tagsB
  -- A version that is new has no tag yet that the other write could take off.
  have sparedB : retagA b = b :=
    Version.retaggedAll_untagged sameName.symm apart.symm untaggedB tagsA
  have sparedA : retagB a = a := Version.retaggedAll_untagged sameName apart untaggedA tagsB
  have retagged (v : Version) : retagB (retagA v) = retagA (retagB v) := by
    simp only [retagA, retagB, sameName]
    exact Version.retaggedAll_comm apart disjoint v
  calc write b tagsB (write a tagsA versions)
      = (ensure b ((ensure a versions).map retagA)).map retagB := rfl
    _ = ((ensure b (ensure a versions)).map retagA).map retagB := by
        rw [map_ensure keepingA b, sparedB]
    _ = ((ensure a (ensure b versions)).map retagB).map retagA := by
        rw [ensure_comm fun same => apart same.2.symm]
        simp only [List.map_map, Function.comp_def, retagged]
    _ = (ensure a ((ensure b versions).map retagB)).map retagA := by
        rw [map_ensure keepingB a, sparedA]
    _ = write a tagsA (write b tagsB versions) := rfl

theorem map_undated_write (seed : Version) (tags : List String) (versions : List Version) :
    (write seed tags versions).map Version.undated =
      write seed.undated tags (versions.map Version.undated) := by
  have timeless := Version.timeless_retaggedAll seed.name seed.hash tags
  rw [write, write, ← map_ensure Version.keeping_undated, List.map_map, List.map_map]
  exact List.map_congr_left fun v _ => timeless v

end Versions

open Versions (lookup write)

namespace Store

variable {s : Store}

theorem addContent_versions (s : Store) (name : QualifiedName) (hash : String)
    (content : ByteArray) : (s.addContent name hash content).versions =
      Versions.ensure (s.freshVersion name hash content) s.versions := by
  unfold addContent Versions.ensure
  cases found : lookup s.versions name hash <;> simp only [freshVersion, found]

theorem commit_versions (s : Store) (metadata : UploadMetadata) (content : ByteArray) :
    (s.commit metadata content).2.versions =
      write (s.freshVersion metadata.name (Sha256.hex content) content) metadata.tags
        s.versions := by
  simp only [commit, Versions.retagAll_eq_map, addContent_versions]
  rfl

theorem addTag_versions {r : TagRequest} (added : (s.addTag r).1 = .ok ()) {seed : Version}
    (named : seed.name = r.name) (keyed : seed.hash = r.versionHash) :
    (s.addTag r).2.versions = write seed [r.tag] s.versions := by
  have present : (lookup s.versions seed.name seed.hash).isSome := by
    rw [named, keyed]
    exact (addTag_ok_iff.mp added).2
  rw [addTag_added added, write, Versions.ensure_present present, named, keyed]
  rfl

end Store

namespace Traffic

structure Write where
  hash : String
  tags : List String
  /-- Of the version, if it is new. -/
  content : ByteArray

/-- The step writes to a version of the name, and succeeds. -/
inductive Writes (w : State) (name : QualifiedName) : Step → Write → Prop where
  | upload {i : Nat} {u : Upload} {metadata : UploadMetadata} (held : w.handles i = .held u)
      (ready : u.Ready metadata) (named : metadata.name = name) :
      Writes w name (.close i) ⟨Sha256.hex u.content, metadata.tags, u.content⟩
  | tag {r : TagRequest} (added : (w.store.addTag r).1 = .ok ()) (named : r.name = name) :
      Writes w name (.addTag r) ⟨r.versionHash, [r.tag], .empty⟩

def Write.seed (x : Write) (name : QualifiedName) : Version :=
  ⟨name, x.hash, x.content, [], 0, ⟨0, 0⟩⟩

variable {w : State} {name : QualifiedName} {a b step : Step} {x y : Write}

theorem Writes.versions (writes : Writes w name step x) :
    (w.step step).2.store.versions.map Version.undated =
      write (x.seed name) x.tags (w.store.versions.map Version.undated) := by
  cases writes with
  | upload held ready named =>
    subst named
    simp only [State.step, held, ready.close, State.store_setHandle, State.store_setStore,
      Store.log, Store.commit_versions]
    exact Versions.map_undated_write _ _ _
  | @tag r added named =>
    subst named
    let seed : Version := ⟨r.name, r.versionHash, .empty, [], 0, ⟨0, 0⟩⟩
    have after : (w.store.addTag r).2.versions = write seed [r.tag] w.store.versions :=
      Store.addTag_versions added rfl rfl
    simp only [State.step, State.store_setStore, after]
    exact Versions.map_undated_write _ _ _

theorem Writes.succeeds (writes : Writes w name step x) : (w.step step).1.isError = false := by
  cases writes with
  | upload held ready => simp [State.step, held, ready.close, Answer.isError]
  | tag added => simp [State.step, added, Answer.isError]

/-- A write takes no version away. -/
theorem Writes.present (writes : Writes w name step x) {hash : String}
    (present : (lookup w.store.versions name hash).isSome) :
    (lookup (w.step step).2.store.versions name hash).isSome := by
  cases writes with
  | upload held ready named =>
    subst named
    simp only [State.step, held, ready.close, State.store_setHandle, State.store_setStore,
      Store.log]
    exact (Store.lookup_commit_isSome _ _ _ hash).mpr (.inr present)
  | @tag r added named =>
    have keeping := Version.keeping_retagged r.name r.versionHash r.tag
    simpa [State.step, Store.addTag_added added, Versions.retag, Versions.lookup_map keeping]
      using present

/-- What a write is does not change by a write to another version. -/
theorem Writes.after (first : Writes w name a x) (second : Writes w name b y)
    (apart : x.hash ≠ y.hash) : Writes (w.step a).2 name b y := by
  cases second with
  | @upload i u metadata held ready named =>
    have untouched : a.upload? ≠ some i := by
      intro same
      cases first with
      | upload heldToo =>
        obtain rfl := Option.some.inj same
        obtain rfl := Handle.held.inj (held.symm.trans heldToo)
        exact apart rfl
      | tag => simp [Step.upload?] at same
    exact .upload ((State.step_handles untouched w).trans held) ready named
  | @tag r added named =>
    obtain ⟨nonempty, present⟩ := Store.addTag_ok_iff.mp added
    refine .tag (Store.addTag_ok_iff.mpr ⟨nonempty, ?_⟩) named
    rw [named] at present ⊢
    exact first.present present

/-- A write does the same whatever the clock reads. -/
theorem Writes.clocked (writes : Writes w name step x) (now : Timestamp) :
    Writes (w.step (.clock now)).2 name step x := by
  cases writes with
  | upload held ready named => exact .upload held ready named
  | tag added named =>
    have asked := Store.addTag_ok_iff.mp added
    exact .tag (Store.addTag_ok_iff.mpr asked) named

theorem Writes.both_versions (first : Writes w name a x) (second : Writes w name b y)
    (apart : x.hash ≠ y.hash) (now later : Timestamp) :
    (w.after [.clock now, a, .clock later, b]).store.versions.map Version.undated =
      write (y.seed name) y.tags
        (write (x.seed name) x.tags (w.store.versions.map Version.undated)) := by
  have firstVersions := (first.clocked now).versions
  have secondVersions :=
    (((first.clocked now).after (second.clocked now) apart).clocked later).versions
  exact secondVersions.trans (congrArg (write (y.seed name) y.tags) firstVersions)

/-- Two writes under one name, to different versions and with no tag in common, succeed in either
order and leave the same versions, with the same contents and pulls and the same tags in the same
order, whatever the clock reads at each. Only when a version was created can tell which of them came
first. -/
theorem independent_writes_commute (first : Writes w name a x) (second : Writes w name b y)
    (apart : x.hash ≠ y.hash) (disjoint : ∀ tag ∈ x.tags, tag ∉ y.tags) :
    (∀ event ∈ w.history [a, b] ++ w.history [b, a], event.2.isError = false) ∧
    (w.after [a, b]).store.versions.map Version.undated =
      (w.after [b, a]).store.versions.map Version.undated ∧
    ∀ now later now' later',
      (w.after [.clock now, a, .clock later, b]).store.versions.map Version.undated =
        (w.after [.clock now', b, .clock later', a]).store.versions.map Version.undated := by
  have secondAfter : Writes (w.step a).2 name b y := first.after second apart
  have firstAfter : Writes (w.step b).2 name a x := second.after first apart.symm
  have sameName : (x.seed name).name = (y.seed name).name := rfl
  have commute (now later now' later' : Timestamp) :
      (w.after [.clock now, a, .clock later, b]).store.versions.map Version.undated =
        (w.after [.clock now', b, .clock later', a]).store.versions.map Version.undated :=
    calc (w.after [.clock now, a, .clock later, b]).store.versions.map Version.undated
        = write (y.seed name) y.tags
            (write (x.seed name) x.tags (w.store.versions.map Version.undated)) :=
          first.both_versions second apart now later
      _ = write (x.seed name) x.tags
            (write (y.seed name) y.tags (w.store.versions.map Version.undated)) :=
          Versions.write_comm sameName apart rfl rfl disjoint _
      _ = (w.after [.clock now', b, .clock later', a]).store.versions.map Version.undated :=
          (second.both_versions first apart.symm now' later').symm
  refine ⟨?_, ?_, commute⟩
  · simp [State.history, first.succeeds, second.succeeds, firstAfter.succeeds,
      secondAfter.succeeds]
  · -- To read the clock as it stands changes nothing.
    exact commute w.store.clock (w.step a).2.store.clock w.store.clock (w.step b).2.store.clock

/-! A third tool takes a tag from the first, while the first takes one from the second. -/

def thirdToolRun : List Step := toolRun ++ [
  .openUpload 2,
  .send 2 (.metadata ⟨toolName, ["v3", "v1", "v3"]⟩),
  .send 2 (.content "abcde".toUTF8)]

def thirdTool : Upload where
  metadata := some ⟨toolName, ["v3", "v1", "v3"]⟩
  frames := #["abcde".toUTF8]

def latestFirst : TagRequest := ⟨toolName, firstTool.hash, "latest"⟩

theorem third_tool_commutes :
    let w := start.after thirdToolRun
    (w.after [.close 2, .addTag latestFirst]).store.versions.map Version.undated =
      (w.after [.addTag latestFirst, .close 2]).store.versions.map Version.undated ∧
    (w.after [.close 2, .addTag latestFirst]).store.versions.map Version.tags =
      [["v3", "v1"], ["v2"], ["latest"]] := by
  intro w
  have held : w.handles 2 = .held thirdTool := rfl
  have uploads : Writes w toolName (.close 2) ⟨_, ["v3", "v1", "v3"], _⟩ :=
    .upload held ⟨rfl, rfl⟩ rfl
  have added : (w.store.addTag latestFirst).1 = .ok () := by decide +kernel
  have tags : Writes w toolName (.addTag latestFirst) ⟨firstTool.hash, ["latest"], .empty⟩ :=
    .tag added rfl
  have apart : Sha256.hex thirdTool.content ≠ firstTool.hash := by decide +kernel
  obtain ⟨_, same, _⟩ := independent_writes_commute uploads tags apart (by decide)
  exact ⟨same, by decide +kernel⟩

end Traffic

end Depot
