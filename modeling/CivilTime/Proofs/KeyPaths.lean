import CivilTime.Proofs.CachedZones
import CivilTime.Proofs.Paths

/-!
# The paths of keys

A key becomes part of a path, and no key leads out of the directory that it is looked up in.

* `ZoneKey.IsKeyText` spells out the rule for keys.  It is about single characters, about two or
  three in a row, and about both ends, and `IsKeyText.nil_notMem_splitAt`,
  `IsKeyText.dots_notMem_splitAt` and `IsKeyText.exists_isName` say what follows for the parts
  between the slashes: none is empty or `..`, and one is a name.
* `ZoneKey.Strays` has what a path must not have.  Such a key is refused
  (`ZoneKey.isValid_eq_false_of_strays`), and a request for it ends before any file is read
  (`Store.get_of_invalid`).
* `Store.key_paths` puts both together.
-/

namespace CivilTime

namespace ZoneKey

variable {key : String} {text part : List Char}

/-! ## The rule for keys -/

/-- What a text has to be like to be a key. -/
structure IsKeyText (text : List Char) : Prop where
  length_pos : 0 < text.length
  length_lt : text.length < 100
  keyChar : ∀ c ∈ text, isKeyChar c = true
  noDots : ¬['.', '.'] <:+: text
  noSlashes : ¬['/', '/'] <:+: text
  noDotBetween : ¬['/', '.', '/'] <:+: text
  start : ∀ c, text.head? = some c → isRefusedStart c = false
  last : text.getLast? ≠ some '/'

theorem isValidText_iff : isValidText text = true ↔ IsKeyText text := by
  have hoccurs : ∀ pattern, (!Text.occursIn pattern text) = true ↔ ¬pattern <:+: text := by
    intro pattern
    rw [← Text.occursIn_iff, Bool.not_eq_true, Bool.not_eq_true']
  unfold isValidText
  simp only [Bool.and_eq_true, decide_eq_true_eq, List.all_eq_true, hoccurs]
  constructor
  · rintro ⟨⟨⟨⟨⟨⟨⟨hpos, hlt⟩, hchars⟩, hdots⟩, hslashes⟩, hbetween⟩, hstart⟩, hlast⟩
    refine ⟨hpos, hlt, hchars, hdots, hslashes, hbetween, ?_, ?_⟩
    · intro c hc
      simpa [hc] using hstart
    · intro hc
      simp [hc] at hlast
  · intro h
    refine ⟨⟨⟨⟨⟨⟨⟨h.length_pos, h.length_lt⟩, h.keyChar⟩, h.noDots⟩, h.noSlashes⟩,
      h.noDotBetween⟩, ?_⟩, ?_⟩
    · cases hc : text.head? with
      | none => rfl
      | some c => simp [h.start c hc]
    · cases hc : text.getLast? with
      | none => rfl
      | some c =>
        have hne : c ≠ '/' := fun hslash => h.last (hslash ▸ hc)
        simp [hne]

namespace IsKeyText

theorem head?_ne {c : Char} (h : IsKeyText text) (hc : isRefusedStart c = true) :
    text.head? ≠ some c := by
  intro hhead
  rw [h.start c hhead] at hc
  contradiction

/-- No part of a key is empty: there are no slashes side by side or at an end. -/
theorem nil_notMem_splitAt (h : IsKeyText text) : [] ∉ Text.splitAt '/' text := by
  intro hmem
  have hinfix : ['/', '/'] <:+: '/' :: (text ++ ['/']) := Text.delimited_of_mem_splitAt hmem
  have hne : text ≠ [] := List.ne_nil_of_length_pos h.length_pos
  -- Two slashes in a row are at the beginning of the key, at its end, or inside it.
  rw [List.infix_cons_iff, List.infix_concat_iff] at hinfix
  rcases hinfix with hstart | hend | hinside
  · obtain ⟨rest, hrest⟩ := hstart
    have htext : text ++ ['/'] = '/' :: rest := (List.cons.inj hrest).2.symm
    have hhead := congrArg List.head? htext
    rw [List.head?_append, List.head?_eq_some_head hne] at hhead
    exact h.head?_ne rfl ((List.head?_eq_some_head hne).trans hhead)
  · obtain ⟨front, hfront⟩ := hend
    have htext : front ++ ['/'] = text :=
      List.append_cancel_right ((List.append_assoc _ _ _).trans hfront)
    rw [← htext] at h
    exact h.last List.getLast?_concat
  · exact h.noSlashes hinside

/-- No part of a key is `..`, since the two dots would be in the key. -/
theorem dots_notMem_splitAt (h : IsKeyText text) : ['.', '.'] ∉ Text.splitAt '/' text :=
  fun hmem => h.noDots (Text.infix_of_mem_splitAt hmem)

/-- The first part of a key is a name, since no key begins with a dot. -/
theorem exists_isName (h : IsKeyText text) :
    ∃ part ∈ Text.splitAt '/' text, Directory.IsName (String.ofList part) := by
  have htext := Text.flatMap_splitAt '/' text
  have hempty := h.nil_notMem_splitAt
  have hdots := h.dots_notMem_splitAt
  cases hsplit : Text.splitAt '/' text with
  | nil => exact absurd hsplit (Text.splitAt_ne_nil _ _)
  | cons first rest =>
    rw [hsplit, List.flatMap_cons, List.cons_append] at htext
    rw [hsplit] at hempty hdots
    have hfirst : first ++ rest.flatMap ('/' :: ·) = text := (List.cons.inj htext).2
    have hofList : ∀ name : List Char, first ≠ name → String.ofList first ≠ String.ofList name :=
      fun name hne heq => hne (String.ofList_injective heq)
    refine ⟨first, List.mem_cons_self, hofList [] ?_, hofList ['.'] ?_, hofList ['.', '.'] ?_⟩
    · rintro rfl
      exact hempty List.mem_cons_self
    · rintro rfl
      exact h.head?_ne rfl (congrArg List.head? hfirst).symm
    · rintro rfl
      exact hdots List.mem_cons_self

end IsKeyText

theorem isKeyText_of_isValid (h : isValid key = true) : IsKeyText key.toList :=
  isValidText_iff.1 h

theorem empty_notMem_pathParts (h : isValid key = true) : "" ∉ Directory.pathParts key := by
  intro hmem
  obtain ⟨part, hpart, hempty⟩ := List.mem_map.1 hmem
  obtain rfl : part = [] := String.ofList_injective hempty
  exact (isKeyText_of_isValid h).nil_notMem_splitAt hpart

theorem dots_notMem_pathParts (h : isValid key = true) : ".." ∉ Directory.pathParts key := by
  intro hmem
  obtain ⟨part, hpart, hdots⟩ := List.mem_map.1 hmem
  obtain rfl : part = ['.', '.'] := String.ofList_injective hdots
  exact (isKeyText_of_isValid h).dots_notMem_splitAt hpart

theorem head?_ne_slash (h : isValid key = true) : key.toList.head? ≠ some '/' :=
  (isKeyText_of_isValid h).head?_ne rfl

/-- A key has a name in it. -/
theorem pathNames_ne_nil (h : isValid key = true) : Directory.pathNames key ≠ [] := by
  obtain ⟨part, hpart, hname⟩ := (isKeyText_of_isValid h).exists_isName
  have hmem : String.ofList part ∈ Directory.pathNames key := by
    rw [Directory.pathNames_of_noAbove (dots_notMem_pathParts h), List.mem_filter]
    exact ⟨List.mem_map_of_mem hpart, by simpa using hname⟩
  exact List.ne_nil_of_mem hmem

/-! ## Texts that are no keys -/

theorem toNat_of_isAlphanum {c : Char} (h : c.isAlphanum = true) :
    48 ≤ c.toNat ∧ c.toNat ≤ 122 ∧ c.toNat ≠ 92 := by
  unfold Char.isAlphanum Char.isAlpha Char.isUpper Char.isLower Char.isDigit at h
  simp only [ge_iff_le, Bool.or_eq_true, Bool.and_eq_true, decide_eq_true_eq,
    UInt32.le_iff_toNat_le] at h
  have hranges : (65 ≤ c.toNat ∧ c.toNat ≤ 90 ∨ 97 ≤ c.toNat ∧ c.toNat ≤ 122) ∨
      48 ≤ c.toNat ∧ c.toNat ≤ 57 := h
  omega

theorem char_of_isKeyChar {c : Char} (h : isKeyChar c = true) :
    c.toNat ≠ 0 ∧ c ≠ '\\' ∧ c.toNat < 128 := by
  unfold isKeyChar at h
  simp only [Bool.or_eq_true, decide_eq_true_eq] at h
  rcases h with ((((h | rfl) | rfl) | rfl) | rfl) | rfl
  · obtain ⟨hlow, hhigh, hback⟩ := toNat_of_isAlphanum h
    refine ⟨by omega, ?_, by omega⟩
    rintro rfl
    exact hback rfl
  all_goals decide

/-- What a path must not have: characters that are no ASCII characters or have a meaning of
their own in paths, an empty part or `..`, or a slash at its beginning. -/
def Strays (key : String) : Prop :=
  (∃ c ∈ key.toList, c.toNat = 0 ∨ c = '\\' ∨ 128 ≤ c.toNat) ∨
    "" ∈ Directory.pathParts key ∨ ".." ∈ Directory.pathParts key ∨ key.toList.head? = some '/'

theorem isValid_eq_false_of_strays (h : Strays key) : isValid key = false := by
  rw [← Bool.not_eq_true]
  intro hvalid
  rcases h with ⟨c, hmem, hc⟩ | hempty | hdots | hslash
  · have hchar := char_of_isKeyChar ((isKeyText_of_isValid hvalid).keyChar c hmem)
    rcases hc with hzero | hback | hwide
    · exact hchar.1 hzero
    · exact hchar.2.1 hback
    · omega
  · exact empty_notMem_pathParts hvalid hempty
  · exact dots_notMem_pathParts hvalid hdots
  · exact head?_ne_slash hvalid hslash

end ZoneKey

namespace Store

variable {start : Store} {key : String}

/-- The zone of a text that is no key is not found, and no file is read for it.  It cannot be
cached either, as it was never loaded. -/
theorem get_of_invalid (hempty : start.cache = .empty) (hinvalid : ZoneKey.isValid key = false)
    (events : List Event) :
    (start.after events).get key =
      (start.after events, [], .error (.zoneNotFound (Text.quoted key))) := by
  have hload : ∀ s : Store, s.loadValid key = ([], .error (.zoneNotFound (Text.quoted key))) := by
    intro s
    rw [loadValid, hinvalid]
    rfl
  have hmissing : (start.after events).cache.find? key = none := by
    rw [Option.eq_none_iff_forall_ne_some]
    intro data hfound
    obtain ⟨before, after, -, -, hloaded⟩ :=
      exists_lastMiss hempty events _ (Cache.mem_of_find? hfound)
    rw [hload] at hloaded
    contradiction
  rw [get, hmissing, hload]

theorem fileAt_keyPath (hvalid : ZoneKey.isValid key = true) (directory : String)
    (root : Directory) :
    root.fileAt (keyPath directory key) =
      root.fileAt (Directory.pathParts (Directory.join directory key)) := by
  rw [keyPath, Directory.fileAt_append (Directory.pathParts_ne_nil key)
      (ZoneKey.dots_notMem_pathParts hvalid),
    Directory.fileAt_join (ZoneKey.head?_ne_slash hvalid) (ZoneKey.dots_notMem_pathParts hvalid)]

open Directory (join pathNames pathParts)

/-- A key stays below the directories that are searched.  Its path, which is the same whether the
key is joined to the directory as a whole or part by part, has the names of the directory and at
least one more, and the file is looked up inside the directory.  A text that strays is refused
whatever the files. -/
theorem key_paths (key : String) :
    (ZoneKey.isValid key = true → ∀ directory,
      (pathParts key).foldl join directory = join directory key ∧
      pathNames (join directory key) = pathNames directory ++ pathNames key ∧
      pathNames key ≠ [] ∧
      (∀ root : Directory, root.fileAt (pathParts (join directory key)) =
        (root.folderAt (pathParts directory)).bind (·.fileAt (pathParts key))) ∧
      (∀ root : Directory, root.fileAt (keyPath directory key) =
        root.fileAt (pathParts (join directory key)))) ∧
    (ZoneKey.Strays key → ∀ start : Store, start.cache = .empty → ∀ events,
      (start.after events).get key =
        (start.after events, [], .error (.zoneNotFound (Text.quoted key)))) := by
  constructor
  · intro hvalid directory
    have hhead := ZoneKey.head?_ne_slash hvalid
    have hdots := ZoneKey.dots_notMem_pathParts hvalid
    exact ⟨Directory.foldl_join_pathParts (ZoneKey.empty_notMem_pathParts hvalid) directory,
      Directory.pathNames_join hhead hdots, ZoneKey.pathNames_ne_nil hvalid,
      Directory.fileAt_join hhead hdots, fileAt_keyPath hvalid directory⟩
  · intro hstrays start hempty events
    exact get_of_invalid hempty (ZoneKey.isValid_eq_false_of_strays hstrays) events

/-- A zone of a directory that is written in a roundabout way, and a path that leads away. -/
theorem key_paths_amsterdam :
    pathNames (join "/usr/../zones/" "Europe/Amsterdam") = ["zones", "Europe", "Amsterdam"] ∧
      (ofNames ["A"]).get "../A" =
        (ofNames ["A"], [], .error (.zoneNotFound (Text.quoted "../A"))) := by
  have hstrays : ZoneKey.Strays "../A" := .inr (.inr (.inl (by decide +kernel)))
  constructor
  · exact ((key_paths "Europe/Amsterdam").1 (by decide +kernel) "/usr/../zones/").2.1.trans
      (by decide +kernel)
  · exact (key_paths "../A").2 hstrays (ofNames ["A"]) rfl []

end Store

end CivilTime
