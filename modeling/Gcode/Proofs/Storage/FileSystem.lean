import Gcode.Storage.FileSystem

/-!
# Written files

A file that was written, with the directories above it, is read back and can be written again: no
path leads another way because of a file that is new or has another text.
-/

namespace Gcode.FileSystem

variable (files : FileSystem)

/-! ## Inserting -/

theorem lookup_filter_ne {entries : List (Place × Entry)} {place other : Place}
    (different : other ≠ place) :
    (entries.filter (·.1 != place)).lookup other = entries.lookup other := by
  induction entries with
  | nil => rfl
  | cons entry entries ih =>
      obtain ⟨next, entry⟩ := entry
      by_cases hnext : next = place
      · subst hnext
        simp [List.lookup_cons, beq_false_of_ne different, ih]
      · simp [List.lookup_cons, hnext, ih]

theorem entry?_insert_of_ne {place other : Place} (different : other ≠ place) (entry : Entry) :
    entry? (files.insert place entry) other = files.entry? other := by
  simp only [insert, entry?, List.lookup_cons, beq_false_of_ne different,
    lookup_filter_ne different]

theorem entry?_insert_self {place : Place} (hroot : place.isRoot = false) (entry : Entry) :
    entry? (files.insert place entry) place = some entry := by
  simp [insert, entry?, hroot]

theorem isDirectory_of_isRoot {place : Place} (hroot : place.isRoot = true) :
    files.isDirectory place = true := by
  simp [isDirectory, entry?, hroot]

theorem isRoot_of_not_isDirectory {files : FileSystem} {place : Place}
    (hplace : files.isDirectory place = false) : place.isRoot = false := by
  cases hroot : place.isRoot with
  | false => rfl
  | true => exact absurd (files.isDirectory_of_isRoot hroot) (by simp [hplace])

theorem isDirectory_insert_file {place : Place} (hplace : files.isDirectory place = false)
    (text : String) : (files.insert place (.file text)).isDirectory = files.isDirectory := by
  funext other
  by_cases hother : other = place
  · subst hother
    rw [hplace, isDirectory, entry?_insert_self files (isRoot_of_not_isDirectory hplace)]
    rfl
  · rw [isDirectory, entry?_insert_of_ne files hother, isDirectory]

theorem isDirectory_insert_directory (place : Place) {other : Place}
    (hother : other = place ∨ files.isDirectory other = true) :
    (files.insert place .directory).isDirectory other = true := by
  by_cases hroot : other.isRoot = true
  · exact isDirectory_of_isRoot _ hroot
  · by_cases hsame : other = place
    · subst hsame
      rw [isDirectory, entry?_insert_self files (by simpa using hroot)]
      rfl
    · rw [isDirectory, entry?_insert_of_ne files hsame]
      exact hother.resolve_left hsame

theorem follow_congr {files others : FileSystem}
    (same : files.isDirectory = others.isDirectory) (here : Place) (names : List (List Char)) :
    files.follow here names = others.follow here names := by
  induction names generalizing here with
  | nil => rfl
  | cons name names ih => simp only [follow, same, ih]

/-! ## Making directories -/

theorem makeEach_cons {files made : FileSystem} {here : Place} {name : List Char}
    {names : List (List Char)} (hmade : files.makeEach here (name :: names) = some made) :
    Path.isValidName name = true ∧
      ∃ between : FileSystem, between.makeEach (here.enter name) names = some made ∧
        between.isDirectory (here.enter name) = true ∧
        ∀ place, files.isDirectory place = true → between.isDirectory place = true := by
  simp only [makeEach] at hmade
  split at hmade
  · next hname =>
      refine ⟨hname, ?_⟩
      split at hmade
      · next hentry => exact ⟨files, hmade, by simp [isDirectory, hentry], fun _ h => h⟩
      · contradiction
      · exact ⟨_, hmade, files.isDirectory_insert_directory _ (.inl rfl),
          fun _ h => files.isDirectory_insert_directory _ (.inr h)⟩
  · contradiction

theorem isDirectory_makeEach {files made : FileSystem} {here : Place} {names : List (List Char)}
    (hmade : files.makeEach here names = some made) {place : Place}
    (hplace : files.isDirectory place = true) : made.isDirectory place = true := by
  induction names generalizing files here with
  | nil =>
      obtain rfl := Option.some.inj hmade
      exact hplace
  | cons name names ih =>
      obtain ⟨-, between, hrest, -, hkept⟩ := makeEach_cons hmade
      exact ih hrest (hkept place hplace)

theorem follow_makeEach {files made : FileSystem} {here : Place} {names : List (List Char)}
    (hmade : files.makeEach here names = some made) (hhere : files.isDirectory here = true) :
    (made.follow here names).any made.isDirectory = true := by
  induction names generalizing files here with
  | nil =>
      obtain rfl := Option.some.inj hmade
      simpa [follow] using hhere
  | cons name names ih =>
      obtain ⟨hname, between, hrest, hnext, -⟩ := makeEach_cons hmade
      rw [follow, if_pos (by simp [isDirectory_makeEach hmade hhere, hname])]
      exact ih hrest hnext

theorem isDirectory_origin (path : Path) : files.isDirectory (origin path) = true := by
  refine files.isDirectory_of_isRoot ?_
  unfold origin
  split <;> rfl

theorem follow_makeDirectories {files made : FileSystem} {path : Path} {names : List (List Char)}
    (hmade : files.makeDirectories (origin path) names = some made) :
    (made.follow (origin path) names).any made.isDirectory = true := by
  unfold makeDirectories at hmade
  split at hmade
  · next hthere =>
      obtain rfl := Option.some.inj hmade
      exact hthere
  · exact follow_makeEach hmade (files.isDirectory_origin path)

/-! ## Writing -/

def IsWritable (path : Path) : Prop :=
  ∀ text, (files.writeWithParents? path text).isSome = true

theorem contains_of_read? {files : FileSystem} {path : Path} {text : String}
    (hread : files.read? path = some text) : files.contains path = true := by
  unfold read? at hread
  unfold contains
  split at hread
  · next hentry => rw [hentry]; rfl
  · contradiction

theorem writeWithParents?_eq_some {files after : FileSystem} {path : Path} {text : String}
    (hwrite : files.writeWithParents? path text = some after) :
    path.fits = true ∧ path.asksForDirectory = false ∧
      ∃ made place, files.makeDirectories (origin path) path.names.dropLast = some made ∧
        made.place? path = some place ∧ made.isDirectory place = false ∧
        after = made.insert place (.file text) := by
  unfold writeWithParents? at hwrite
  split at hwrite
  · next hfits =>
      refine ⟨hfits, ?_⟩
      cases hmade : files.makeDirectories (origin path) path.names.dropLast with
      | none => simp [hmade] at hwrite
      | some made =>
          cases hplace : made.place? path with
          | none => simp [hmade, write?, hplace] at hwrite
          | some place =>
              simp only [hmade, write?, hplace, Option.bind_eq_bind, Option.bind_some] at hwrite
              split at hwrite
              · contradiction
              · next hfree =>
                  obtain ⟨hasks, hdirectory⟩ := not_or.1 (mt Bool.or_eq_true_iff.2 hfree)
                  exact ⟨by simpa using hasks, made, place, rfl, hplace, by simpa using hdirectory,
                    (Option.some.inj hwrite).symm⟩
  · contradiction

theorem read?_of_writeWithParents? {files after : FileSystem} {path : Path} {text : String}
    (hwrite : files.writeWithParents? path text = some after) :
    after.read? path = some text ∧ after.IsWritable path := by
  obtain ⟨hfits, hasks, made, place, hmade, hplace, hdirectory, rfl⟩ :=
    writeWithParents?_eq_some hwrite
  have hsame := made.isDirectory_insert_file hdirectory text
  have hthere : (made.insert place (.file text)).place? path = some place := by
    rw [place?] at hplace ⊢
    rw [follow_congr hsame]
    exact hplace
  constructor
  · simp [read?, pathEntry?, hthere, hasks,
      entry?_insert_self made (isRoot_of_not_isDirectory hdirectory)]
  · intro other
    have hdirectories : (made.insert place (.file text)).makeDirectories (origin path)
        path.names.dropLast = some (made.insert place (.file text)) := by
      rw [makeDirectories, if_pos]
      rw [follow_congr hsame, hsame]
      exact follow_makeDirectories hmade
    rw [writeWithParents?, if_pos hfits, hdirectories]
    simp [write?, hthere, hasks, hsame, hdirectory]

end Gcode.FileSystem
