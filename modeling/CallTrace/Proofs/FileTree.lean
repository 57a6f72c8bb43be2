import CallTrace.FileTree
import CallTrace.Proofs.Reader.Steady

/-!
# What is found in a file tree

Placing a directory changes nothing that stands in the tree already (`at?_place_directory`), so a
path still leads to the same spot after further directories were made (`foldlM_follow`).  A file
that is put where nothing stood is therefore found along the same path, and all else is found as
before (`look_put`).
-/

namespace CallTrace

namespace FileTree

variable {tree tree' made : FileTree} {spot other last : Spot} {state : FileState}

/-! ### Spots -/

/-- If anything is placed, then where nothing stood, or as a file in place of a file. -/
theorem place_cases (tree : FileTree) (spot : Spot) (state : FileState) :
    tree.place spot state = tree ∨
      ∃ names, spot = .below names ∧
        tree.place spot state = ⟨(names, state) :: tree.entries⟩ ∧
        (tree.at? spot = .absent ∨
          (∃ old, tree.at? spot = .file old) ∧ ∃ new, state = .file new) := by
  unfold place
  split
  · rename_i names free
    exact .inr ⟨names, rfl, rfl, .inl free⟩
  · rename_i names old new stands
    exact .inr ⟨names, rfl, rfl, .inr ⟨⟨old, stands⟩, new, rfl⟩⟩
  · exact .inl rfl

theorem at?_place_of_ne (h : other ≠ spot) :
    (tree.place spot state).at? other = tree.at? other := by
  rcases tree.place_cases spot state with same | ⟨names, rfl, placed, -⟩
  · rw [same]
  · rw [placed]
    rcases other with (_ | ⟨last, above⟩) | _
    · rfl
    · have apart : (last :: above == names) = false := beq_false_of_ne fun e => h (e ▸ rfl)
      simp only [at?, List.lookup_cons, apart]
    · rfl

theorem at?_place_self (free : tree.at? spot = .absent) :
    (tree.place spot state).at? spot = state := by
  rcases spot with (_ | ⟨last, names⟩) | _
  · cases free
  · unfold place
    rw [free]
    simp [at?]
  · cases free

/-- A directory does not take the place of anything. -/
theorem at?_place_directory (stands : tree.at? other ≠ .absent) :
    (tree.place spot .directory).at? other = tree.at? other := by
  rcases tree.place_cases spot .directory with same | ⟨names, rfl, -, free | ⟨-, new, isFile⟩⟩
  · rw [same]
  · exact at?_place_of_ne fun e => stands (e ▸ free)
  · cases isFile

/-- Nothing takes the place of a directory. -/
theorem directory_place (directory : tree.at? other = .directory) :
    (tree.place spot state).at? other = .directory := by
  rcases tree.place_cases spot state with same | ⟨names, rfl, -, free | ⟨⟨old, isFile⟩, -⟩⟩
  · rw [same, directory]
  · rw [at?_place_of_ne, directory]
    rintro rfl
    rw [directory] at free
    cases free
  · rw [at?_place_of_ne, directory]
    rintro rfl
    rw [directory] at isFile
    cases isFile

/-! ### Paths -/

/-- A name leads to the same spot as long as no directory is lost. -/
theorem follow_mono (kept : ∀ spot, tree.at? spot = .directory → tree'.at? spot = .directory)
    {name : String} (h : tree.follow spot name = some last) :
    tree'.follow spot name = some last := by
  unfold follow at h ⊢
  by_cases directory : tree.at? spot = .directory
  · rw [if_pos directory] at h
    rwa [if_pos (kept spot directory)]
  · rw [if_neg directory] at h
    cases h

theorem foldlM_follow (kept : ∀ spot, tree.at? spot = .directory → tree'.at? spot = .directory)
    {names : List String} (h : names.foldlM tree.follow spot = some last) :
    names.foldlM tree'.follow spot = some last := by
  induction names generalizing spot with
  | nil => exact h
  | cons name names ih =>
    rw [List.foldlM_cons] at h ⊢
    obtain ⟨next, step, rest⟩ := Option.bind_eq_some_iff.mp h
    exact Option.bind_eq_some_iff.mpr ⟨next, follow_mono kept step, ih rest⟩

/-- The directories on the way are made, nothing else is touched, and then the names lead there. -/
theorem foldlM_make {names : List String} (h : names.foldlM make (tree, spot) = some (made, last)) :
    (∀ other, tree.at? other ≠ .absent → made.at? other = tree.at? other) ∧
      names.foldlM made.follow spot = some last := by
  induction names generalizing tree spot with
  | nil =>
    cases h
    exact ⟨fun _ _ => rfl, rfl⟩
  | cons name names ih =>
    rw [List.foldlM_cons] at h
    obtain ⟨⟨grown, next⟩, step, rest⟩ := Option.bind_eq_some_iff.mp h
    obtain ⟨next', follows, same⟩ := Option.map_eq_some_iff.mp step
    cases same
    obtain ⟨stands, leads⟩ := ih rest
    constructor
    · intro other hother
      have first : (tree.place spot .directory).at? other = tree.at? other :=
        at?_place_directory hother
      rw [stands other (first.symm ▸ hother), first]
    · rw [List.foldlM_cons]
      refine Option.bind_eq_some_iff.mpr ⟨next, follow_mono ?_ follows, leads⟩
      intro other directory
      rw [stands other (by rw [directory]; nofun), directory]

/-- A file or a directory that is put where nothing stands is found there, and whatever else
    stood in the tree still stands. -/
theorem look_put {path : String} (named : path.isEmpty = false)
    (short : path.utf8ByteSize < pathLimit) (way : tree.way? path = some (made, spot))
    (free : made.at? spot = .absent) :
    (tree.put path state).look path = state ∧
      ∀ other, tree.at? other ≠ .absent → (tree.put path state).at? other = tree.at? other := by
  obtain ⟨stands, leads⟩ := foldlM_make way
  have put : tree.put path state = made.place spot state := by rw [FileTree.put, way]
  have leads' : (pathNames path).foldlM (made.place spot state).follow (.start path) = some spot :=
    foldlM_follow (fun _ => directory_place) leads
  have within : ¬ (path.isEmpty = true ∨ pathLimit ≤ path.utf8ByteSize) := by
    simp [named, short]
  rw [put]
  constructor
  · rw [look, if_neg within, leads']
    exact at?_place_self free
  · intro other hother
    have before := stands other hother
    rw [at?_place_of_ne, before]
    rintro rfl
    exact hother (before ▸ free)

end FileTree

/-- A file whose text decodes to a document that can be recorded is opened. -/
theorem Recording.ofFile_eq_ok {files : Files} {path : String} {contents : Json.Bytes}
    {d : Document} {r : Recording} (file : files path = .file contents)
    (decoded : (Document.ofJson contents).toOption = some d)
    (recorded : ofDocument d = .ok r) : ofFile files path = .ok r := by
  rw [ofFile, file]
  simp only [ofJson, eq_ok_of_toOption decoded, recorded]
  rfl

end CallTrace
