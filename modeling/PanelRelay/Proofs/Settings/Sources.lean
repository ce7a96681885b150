import PanelRelay.Settings.Source

/-!
The files that settings are read from. A file is looked for by its name with the ending of one format
after the other, and the first that is there is read. A file whose name has no ending hides them all.
-/

namespace PanelRelay.Settings

variable {formats : List Format} {directory : Files.Directory} {name : String}

/-- The file of a name in the first format in which there is one. -/
inductive IsFirstFile (formats : List Format) (directory : Files.Directory) (name : String) :
    Format → Files.Content → Prop
  | intro {before after : List Format} {format : Format} {content : Files.Content} :
      formats = before ++ format :: after → directory.lookup name = none →
      (∀ other ∈ before, directory.lookup (name ++ "." ++ other.extension) = none) →
      directory.lookup (name ++ "." ++ format.extension) = some content →
      IsFirstFile formats directory name format content

def IsWithoutFile (formats : List Format) (directory : Files.Directory) (name : String) : Prop :=
  (∃ content, directory.lookup name = some content) ∨
    ∀ format ∈ formats, directory.lookup (name ++ "." ++ format.extension) = none

def FileSays (formats : List Format) (directory : Files.Directory) (name : String)
    (source : Members) : Prop :=
  ∃ format content, IsFirstFile formats directory name format content ∧
    format.read (textOfFile content) = .ok source

theorem find?_eq_some_iff (format : Format) (content : Files.Content) :
    find? formats directory name = some (format, content) ↔
      IsFirstFile formats directory name format content := by
  constructor
  · intro hfind
    rw [find?] at hfind
    split at hfind
    next => cases hfind
    next hbare =>
      obtain ⟨before, found, after, hformats, hfound, hbefore⟩ :=
        List.findSome?_eq_some_iff.mp hfind
      obtain ⟨_, hcontent, heq⟩ := Option.map_eq_some_iff.mp hfound
      obtain ⟨rfl, rfl⟩ := Prod.mk.inj heq
      refine .intro hformats (Option.not_isSome_iff_eq_none.mp hbare) ?_ hcontent
      exact fun other hother => Option.map_eq_none_iff.mp (hbefore other hother)
  · rintro ⟨hformats, hbare, hbefore, hcontent⟩
    have hnone : ¬ (Files.find? directory name).isSome = true :=
      Option.not_isSome_iff_eq_none.mpr hbare
    rw [find?, if_neg hnone, List.findSome?_eq_some_iff]
    refine ⟨_, format, _, hformats, Option.map_eq_some_iff.mpr ⟨content, hcontent, rfl⟩, ?_⟩
    exact fun other hother => Option.map_eq_none_iff.mpr (hbefore other hother)

theorem find?_eq_none_iff :
    find? formats directory name = none ↔ IsWithoutFile formats directory name := by
  rw [find?, IsWithoutFile]
  split
  next hbare => exact ⟨fun _ => .inl (Option.isSome_iff_exists.mp hbare), fun _ => rfl⟩
  next hbare =>
    have hnot : ¬ ∃ content, directory.lookup name = some content :=
      mt Option.isSome_iff_exists.mpr hbare
    rw [List.findSome?_eq_none_iff, or_iff_right hnot]
    exact forall_congr' fun format => imp_congr_right fun _ => Option.map_eq_none_iff

theorem readFile_eq_ok_iff (format : Format) (content : Files.Content) (source : Members) :
    readFile format content = .ok source ↔ format.read (textOfFile content) = .ok source := by
  rw [readFile]
  cases format.read (textOfFile content) with
  | ok members =>
      show (Except.ok members : Except Error Members) = .ok source ↔ _
      rw [Except.ok.injEq, Except.ok.injEq]
  | error explanation =>
      constructor
      · intro h
        cases h
      · intro h
        cases h

theorem required_eq_ok_iff (source : Members) :
    required formats directory name = .ok source ↔ FileSays formats directory name source := by
  rw [required]
  constructor
  · intro hrequired
    split at hrequired
    next format content hfind =>
      exact ⟨format, content, (find?_eq_some_iff format content).mp hfind,
        (readFile_eq_ok_iff format content source).mp hrequired⟩
    next => cases hrequired
  · intro ⟨format, content, hfile, hread⟩
    rw [(find?_eq_some_iff format content).mpr hfile]
    exact (readFile_eq_ok_iff format content source).mpr hread

theorem optional_eq_ok_iff (source : Members) :
    optional formats directory name = .ok source ↔
      FileSays formats directory name source ∨
        IsWithoutFile formats directory name ∧ source = [] := by
  rw [optional, ← required_eq_ok_iff, required, ← find?_eq_none_iff]
  cases find? formats directory name with
  | none => simp [eq_comm]
  | some file => simp

end PanelRelay.Settings
