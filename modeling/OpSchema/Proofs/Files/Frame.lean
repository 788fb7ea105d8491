import OpSchema.Files.FileSystem

/-!
# What the operations on files leave alone

Making directories never touches what is there: every place shows what it
showed before, or it was empty and is a directory now
(`FileSystem.AddsDirectories`).  This holds whether the operation succeeds or
stops halfway.

A file that was made can be written, and what was written is read back
(`FileSystem.exists_appendText`).  Behind this is that a path still leads to the
same place after something was put there: on the way to a place there are only
directories, and a place with a directory is never overwritten by a file.
-/

namespace OpSchema.FileSystem

/-! ## Making directories -/

/-- Every place shows what it showed before, or was empty and is a directory now. -/
def AddsDirectories (before after : FileSystem) : Prop :=
  ∀ location, after.node? location = before.node? location ∨
    before.node? location = none ∧ after.node? location = some .directory

theorem AddsDirectories.refl (fs : FileSystem) : fs.AddsDirectories fs :=
  fun _ => .inl rfl

theorem AddsDirectories.trans {first second third : FileSystem}
    (hfirst : first.AddsDirectories second) (hsecond : second.AddsDirectories third) :
    first.AddsDirectories third := by
  intro location
  rcases hsecond location with hsame | ⟨hempty, hmade⟩
  · rw [hsame]
    exact hfirst location
  · rcases hfirst location with hbefore | ⟨-, hdirectory⟩
    · exact .inr ⟨hbefore ▸ hempty, hmade⟩
    · rw [hempty] at hdirectory
      exact absurd hdirectory nofun

/-- A file keeps its contents. -/
theorem AddsDirectories.file {before after : FileSystem} (hadds : before.AddsDirectories after)
    {location : Location} {contents : ByteArray}
    (hfile : before.node? location = some (.file contents)) :
    after.node? location = some (.file contents) := by
  rcases hadds location with hsame | ⟨hempty, -⟩
  · exact hsame.trans hfile
  · rw [hempty] at hfile
    exact absurd hfile nofun

theorem addsDirectories_put {fs : FileSystem} {location : Location}
    (hempty : fs.node? location = none) : fs.AddsDirectories (fs.put location .directory) := by
  have hplace : location ≠ [] := by
    rintro rfl
    exact absurd hempty nofun
  intro other
  by_cases hother : other = location
  · subst hother
    exact .inr ⟨hempty, fs.node?_put_self .directory hplace⟩
  · exact .inl (fs.node?_put_of_ne .directory hother)

theorem addsDirectories_ensureAlong (fs : FileSystem) (made : Bool) (location : Location)
    (parts : List String) : fs.AddsDirectories (fs.ensureAlong made location parts).2 := by
  induction parts generalizing fs made location with
  | nil =>
      rw [ensureAlong]
      split
      · exact .refl fs
      · exact .refl fs
      · next hempty => exact addsDirectories_put hempty
  | cons part parts ih =>
      rw [ensureAlong]
      split
      · exact .refl fs
      · split
        · exact .refl fs
        · next next _ => exact ih fs made next
      · next hempty =>
        split
        · exact addsDirectories_put hempty
        · next next _ => exact (addsDirectories_put hempty).trans (ih _ true next)

/-- **Making directories changes nothing that is there**, also where it fails. -/
theorem addsDirectories_createDirectories (fs : FileSystem) (path : String) :
    fs.AddsDirectories (fs.createDirectories path).2 := by
  rw [createDirectories]
  split
  · exact .refl fs
  · exact addsDirectories_ensureAlong fs false [] (Path.parts path)

/-! ## Making files -/

/-- A file that cannot be made changes nothing. -/
theorem createFile_of_error {fs : FileSystem} {path : String} {e : FileError}
    (hfails : (fs.createFile path).1 = .error e) : fs.createFile path = (.error e, fs) := by
  unfold createFile at hfails ⊢
  cases hfollow : fs.followFile path with
  | error e' =>
      rw [hfollow] at hfails
      rw [← hfails]
  | ok location =>
      rw [hfollow] at hfails
      dsimp only at hfails ⊢
      split at hfails
      · rw [← hfails]
      · exact absurd hfails nofun

/-- A file is made at the place that the path leads to, unless there is a directory. -/
theorem exists_of_createFile {fs : FileSystem} {path : String}
    (hmade : (fs.createFile path).1 = .ok ()) :
    ∃ location, fs.followFile path = .ok location ∧ fs.node? location ≠ some .directory ∧
      (fs.createFile path).2 = fs.put location (.file .empty) := by
  unfold createFile at hmade ⊢
  cases hfollow : fs.followFile path with
  | error e =>
      rw [hfollow] at hmade
      exact absurd hmade nofun
  | ok location =>
      rw [hfollow] at hmade
      dsimp only at hmade ⊢
      refine ⟨location, rfl, ?_, ?_⟩
      · intro hdirectory
        rw [hdirectory] at hmade
        exact absurd hmade nofun
      · split at hmade
        · exact absurd hmade nofun
        · rfl

/-! ## Paths to what was put somewhere -/

/-- The way to a place without a directory does not lead through that place. -/
theorem followFrom_put {fs : FileSystem} {start location : Location} {parts : List String}
    (node : FileNode) (hplace : fs.node? location ≠ some .directory)
    (hfollow : fs.followFrom start parts = .ok location) :
    (fs.put location node).followFrom start parts = .ok location := by
  induction parts generalizing start with
  | nil => exact hfollow
  | cons part parts ih =>
      rw [followFrom] at hfollow ⊢
      split at hfollow
      · exact absurd hfollow nofun
      · exact absurd hfollow nofun
      · next hdirectory =>
        have hother : start ≠ location := by
          rintro rfl
          exact hplace hdirectory
        rw [fs.node?_put_of_ne node hother, hdirectory]
        dsimp only
        split at hfollow
        · exact absurd hfollow nofun
        · exact ih hfollow

theorem follow_put {fs : FileSystem} {path : String} {location : Location} (node : FileNode)
    (hplace : fs.node? location ≠ some .directory) (hfollow : fs.follow path = .ok location) :
    (fs.put location node).follow path = .ok location := by
  unfold follow at hfollow ⊢
  split at hfollow
  · exact absurd hfollow nofun
  · next hpath =>
    rw [if_neg hpath]
    split at hfollow
    · exact absurd hfollow nofun
    · exact followFrom_put node hplace hfollow

/-- A path that leads to a file does not end in a slash. -/
theorem followFile_eq_ok {fs : FileSystem} {path : String} {location : Location} :
    fs.followFile path = .ok location ↔
      path.toList.getLast? ≠ some '/' ∧ fs.follow path = .ok location := by
  unfold followFile
  split
  · next hslash =>
    simp only [hslash, ne_eq, not_true_eq_false, false_and, iff_false]
    split
    · exact nofun
    · split <;> exact nofun
  · next hslash => exact (and_iff_right hslash).symm

/-! ## Writing and reading -/

theorem readText_of_file {fs : FileSystem} {path text : String} {location : Location}
    (hfollow : fs.follow path = .ok location)
    (hnode : fs.node? location = some (.file text.toUTF8)) : fs.readText path = .ok text := by
  have htext : String.fromUTF8? text.toUTF8 = some text := dif_pos text.isValidUTF8
  rw [readText, find, hfollow]
  dsimp only
  rw [hnode]
  dsimp only
  rw [htext]

/-- The size of a file that can be read is the size of its text. -/
theorem fileSize_of_readText {fs : FileSystem} {path text : String}
    (hread : fs.readText path = .ok text) : fs.fileSize path = .ok text.utf8ByteSize := by
  rw [readText] at hread
  rw [fileSize]
  cases hfind : fs.find path with
  | error e =>
      rw [hfind] at hread
      exact absurd hread nofun
  | ok node =>
      rw [hfind] at hread
      cases node with
      | directory => exact absurd hread nofun
      | file contents =>
          dsimp only at hread ⊢
          by_cases hvalid : contents.IsValidUTF8
          · rw [String.fromUTF8?, dif_pos hvalid] at hread
            obtain rfl := Except.ok.inj hread
            rfl
          · rw [String.fromUTF8?, dif_neg hvalid] at hread
            exact absurd hread nofun

/-- **What is written to a file that was made is the text of the file.** -/
theorem exists_appendText {fs : FileSystem} {path : String}
    (hmade : (fs.createFile path).1 = .ok ()) (text : String) :
    ∃ written, (fs.createFile path).2.appendText path text = (.ok (), written) ∧
      written.readText path = .ok text := by
  obtain ⟨location, hfile, hplace, hafter⟩ := exists_of_createFile hmade
  obtain ⟨hslash, hfollow⟩ := followFile_eq_ok.1 hfile
  have hroot : location ≠ [] := by
    rintro rfl
    exact hplace rfl
  have hcreated := fs.node?_put_self (.file .empty) hroot
  have hagain := follow_put (.file .empty) hplace hfollow
  have hwritten : (fs.createFile path).2.appendText path text =
      (.ok (), (fs.put location (.file .empty)).put location (.file text.toUTF8)) := by
    rw [hafter, appendText, followFile_eq_ok.2 ⟨hslash, hagain⟩]
    dsimp only
    rw [hcreated]
    dsimp only
    rw [ByteArray.empty_append]
  refine ⟨_, hwritten, readText_of_file ?_ (node?_put_self _ _ hroot)⟩
  refine follow_put _ ?_ hagain
  rw [hcreated]
  exact nofun

end OpSchema.FileSystem
