import CivilTime.Store.Directory

/-!
# Paths

What paths name, and paths that are put together.

* The parts of a text are related to the text as a whole: `Text.splitAt_append_cons` splits at
  one separator, `Text.flatMap_splitAt` joins the parts again, and
  `Text.delimited_of_mem_splitAt` finds a part between two separators.
* `Directory.join` puts a path behind a directory, as a whole or part by part
  (`Directory.foldl_join_pathParts`).
* `Directory.findFrom_append` follows a path in two steps.  A path without `..` never leaves the
  directory where it begins (`Directory.findFrom_of_noAbove`).
* `Directory.pathNames_join` and `Directory.fileAt_join` say the same of joined paths: of their
  names, and of the file that is found.
-/

namespace CivilTime

namespace Text

variable {separator : Char} {text part : List Char}

/-! ## Ends of texts -/

theorem head?_append_ne {c : Char} {front : List Char} (hne : front ≠ []) (habsent : c ∉ front)
    (back : List Char) : (front ++ back).head? ≠ some c := by
  rw [List.head?_append, List.head?_eq_some_head hne]
  intro h
  exact habsent (Option.some.inj h ▸ List.head_mem hne)

theorem getLast?_append_ne {c : Char} {back : List Char} (hne : back ≠ []) (habsent : c ∉ back)
    (front : List Char) : (front ++ back).getLast? ≠ some c := by
  rw [List.getLast?_append, List.getLast?_eq_some_getLast hne]
  intro h
  exact habsent (Option.some.inj h ▸ List.getLast_mem hne)

/-! ## Parts of texts -/

/-- A separator splits a text in two. -/
theorem splitAt_append_cons (separator : Char) (front back : List Char) :
    splitAt separator (front ++ separator :: back) =
      splitAt separator front ++ splitAt separator back := by
  induction front with
  | nil => simp [splitAt]
  | cons c rest ih =>
    rw [List.cons_append, splitAt, splitAt, ih]
    split
    · rfl
    · cases hparts : splitAt separator rest with
      | nil => exact absurd hparts (splitAt_ne_nil _ _)
      | cons part parts => rfl

/-- The parts, each with a separator before it, make up the text again. -/
theorem flatMap_splitAt (separator : Char) (text : List Char) :
    (splitAt separator text).flatMap (separator :: ·) = separator :: text := by
  induction text with
  | nil => rfl
  | cons c rest ih =>
    rw [splitAt]
    split
    · next heq => rw [List.flatMap_cons, ih, heq, List.singleton_append]
    · cases hparts : splitAt separator rest with
      | nil => exact absurd hparts (splitAt_ne_nil _ _)
      | cons part parts =>
        rw [hparts, List.flatMap_cons, List.cons_append] at ih
        simp only [List.flatMap_cons, List.cons_append, (List.cons.inj ih).2]

theorem notMem_of_mem_splitAt (h : part ∈ splitAt separator text) : separator ∉ part := by
  induction text generalizing part with
  | nil =>
    rw [splitAt, List.mem_singleton] at h
    rw [h]
    exact List.not_mem_nil
  | cons c rest ih =>
    rw [splitAt] at h
    split at h
    · cases List.mem_cons.1 h with
      | inl hpart =>
        rw [hpart]
        exact List.not_mem_nil
      | inr hpart => exact ih hpart
    · next hne =>
      cases hparts : splitAt separator rest with
      | nil => exact absurd hparts (splitAt_ne_nil _ _)
      | cons first parts =>
        rw [hparts] at h ih
        cases List.mem_cons.1 h with
        | inl hpart =>
          rw [hpart, List.mem_cons, not_or]
          exact ⟨Ne.symm hne, ih List.mem_cons_self⟩
        | inr hpart => exact ih (List.mem_cons_of_mem _ hpart)

theorem infix_of_mem_splitAt (h : part ∈ splitAt separator text) : part <:+: text := by
  obtain ⟨front, back, hparts⟩ := List.append_of_mem h
  have htext := flatMap_splitAt separator text
  rw [hparts, List.flatMap_append, List.flatMap_cons] at htext
  cases front with
  | nil => exact ⟨[], _, (List.cons.inj htext).2⟩
  | cons first rest =>
    rw [List.flatMap_cons, List.cons_append, List.cons_append] at htext
    have htail := (List.cons.inj htext).2
    refine ⟨first ++ rest.flatMap (separator :: ·) ++ [separator],
      back.flatMap (separator :: ·), ?_⟩
    rw [← htail]
    simp

/-- Every part lies between two separators, if the text does. -/
theorem delimited_of_mem_splitAt (h : part ∈ splitAt separator text) :
    separator :: part ++ [separator] <:+: separator :: text ++ [separator] := by
  obtain ⟨front, back, hparts⟩ := List.append_of_mem h
  have htext := flatMap_splitAt separator text
  rw [hparts, List.flatMap_append, List.flatMap_cons] at htext
  refine ⟨front.flatMap (separator :: ·), (back.flatMap (separator :: ·) ++ [separator]).tail, ?_⟩
  rw [← htext]
  cases back <;> simp

theorem occursIn_iff {pattern : List Char} : occursIn pattern text = true ↔ pattern <:+: text := by
  induction text with
  | nil => simp [occursIn]
  | cons c rest ih =>
    rw [occursIn, Bool.or_eq_true, ih, List.isPrefixOf_iff_prefix, List.infix_cons_iff]

end Text

namespace Directory

/-! ## Joined paths -/

/-- The beginning of the paths in a directory: the directory, with a slash at its end. -/
def leadText (directory : List Char) : List Char :=
  if directory = [] ∨ directory.getLast? = some '/' then directory else directory ++ ['/']

/-- A path behind a directory.  A path from the root stays as it is. -/
def joinText (directory path : List Char) : List Char :=
  if path.head? = some '/' then path else leadText directory ++ path

/-- A path behind a directory. -/
def join (directory path : String) : String :=
  String.ofList (joinText directory.toList path.toList)

theorem pathParts_ofList (text : List Char) :
    pathParts (String.ofList text) = (Text.splitAt '/' text).map String.ofList := by
  rw [pathParts, Text.split, String.toList_ofList]

/-- The parts of a joined path are those of the path, behind those of the directory up to an
empty one at its end. -/
theorem exists_pathParts_join {directory path : String} (hpath : path.toList.head? ≠ some '/') :
    ∃ front, pathParts (join directory path) = front ++ pathParts path ∧
      (pathParts directory = front ∨ pathParts directory = front ++ [""]) := by
  unfold join joinText leadText
  rw [if_neg hpath]
  split
  · next hend =>
    cases hend with
    | inl hempty =>
      refine ⟨[], ?_, .inr ?_⟩
      · rw [hempty, List.nil_append, String.ofList_toList, List.nil_append]
      · rw [pathParts, Text.split, hempty]
        rfl
    | inr hslash =>
      obtain ⟨front, hfront⟩ := List.getLast?_eq_some_iff.1 hslash
      refine ⟨(Text.splitAt '/' front).map String.ofList, ?_, .inr ?_⟩
      · rw [hfront, List.append_assoc, List.singleton_append, pathParts_ofList,
          Text.splitAt_append_cons, List.map_append]
        rfl
      · rw [pathParts, Text.split, hfront, Text.splitAt_append_cons, List.map_append]
        rfl
  · refine ⟨pathParts directory, ?_, .inl rfl⟩
    rw [List.append_assoc, List.singleton_append, pathParts_ofList, Text.splitAt_append_cons,
      List.map_append]
    rfl

/-- Parts that are no paths from the root are put behind one another with slashes. -/
theorem foldl_joinText {directory : List Char} {parts : List (List Char)} (hne : directory ≠ [])
    (hlast : directory.getLast? ≠ some '/') (hparts : ∀ part ∈ parts, part ≠ [] ∧ '/' ∉ part) :
    parts.foldl joinText directory = directory ++ parts.flatMap ('/' :: ·) := by
  induction parts generalizing directory with
  | nil => rw [List.foldl_nil, List.flatMap_nil, List.append_nil]
  | cons part parts ih =>
    rw [List.forall_mem_cons] at hparts
    obtain ⟨⟨hpart, hslash⟩, hrest⟩ := hparts
    have hjoin : joinText directory part = directory ++ '/' :: part := by
      rw [joinText, if_neg fun h => hslash (List.mem_of_head? h), leadText,
        if_neg (by simp [hne, hlast]), List.append_assoc, List.singleton_append]
    have hend : (directory ++ '/' :: part).getLast? ≠ some '/' := by
      rw [List.append_cons]
      exact Text.getLast?_append_ne hpart hslash _
    rw [List.foldl_cons, hjoin, ih (by simp) hend hrest, List.flatMap_cons, List.append_assoc]

theorem foldl_join (directory : String) (parts : List (List Char)) :
    (parts.map String.ofList).foldl join directory =
      String.ofList (parts.foldl joinText directory.toList) := by
  induction parts generalizing directory with
  | nil => rw [List.map_nil, List.foldl_nil, List.foldl_nil, String.ofList_toList]
  | cons part parts ih =>
    rw [List.map_cons, List.foldl_cons, List.foldl_cons, ih, join, String.toList_ofList,
      String.toList_ofList]

/-- A path is joined as a whole or part by part, if none of its parts is empty. -/
theorem foldl_join_pathParts {path : String} (hparts : "" ∉ pathParts path) (directory : String) :
    (pathParts path).foldl join directory = join directory path := by
  have hpieces : ∀ part ∈ Text.splitAt '/' path.toList, part ≠ [] ∧ '/' ∉ part := by
    intro part hmem
    refine ⟨fun hempty => hparts ?_, Text.notMem_of_mem_splitAt hmem⟩
    exact List.mem_map.2 ⟨part, hmem, by rw [hempty]⟩
  have htext := Text.flatMap_splitAt '/' path.toList
  rw [pathParts, Text.split, foldl_join, join]
  congr 1
  cases hsplit : Text.splitAt '/' path.toList with
  | nil => exact absurd hsplit (Text.splitAt_ne_nil _ _)
  | cons first rest =>
    rw [hsplit, List.forall_mem_cons] at hpieces
    rw [hsplit, List.flatMap_cons, List.cons_append] at htext
    obtain ⟨⟨hfirst, hslash⟩, hrest⟩ := hpieces
    have hpath : path.toList = first ++ rest.flatMap ('/' :: ·) := (List.cons.inj htext).2.symm
    have hhead : path.toList.head? ≠ some '/' := by
      rw [hpath]
      exact Text.head?_append_ne hfirst hslash _
    have hlast : (leadText directory.toList ++ first).getLast? ≠ some '/' :=
      Text.getLast?_append_ne hfirst hslash _
    -- The first part goes behind the directory as the whole path does.
    rw [List.foldl_cons, joinText, joinText, if_neg hhead,
      if_neg fun h => hslash (List.mem_of_head? h),
      foldl_joinText (by simp [hfirst]) hlast hrest, hpath, List.append_assoc]

/-! ## Names -/

/-- The names of a path after one more part, the last name first. -/
def enter (names : List String) (part : String) : List String :=
  if part = "" ∨ part = "." then names
  else if part = ".." then names.drop 1
  else part :: names

theorem pathNames_eq (path : String) : pathNames path = ((pathParts path).foldl enter []).reverse :=
  rfl

/-- The part of a path is the name of an entry. -/
def IsName (part : String) : Prop :=
  part ≠ "" ∧ part ≠ "." ∧ part ≠ ".."

instance : DecidablePred IsName := fun part =>
  inferInstanceAs (Decidable (part ≠ "" ∧ part ≠ "." ∧ part ≠ ".."))

/-- A path without `..` adds its names to those before it. -/
theorem foldl_enter {parts : List String} (habove : ".." ∉ parts) (names : List String) :
    parts.foldl enter names = (parts.filter (IsName ·)).reverse ++ names := by
  induction parts generalizing names with
  | nil => rfl
  | cons part parts ih =>
    rw [List.mem_cons, not_or] at habove
    have hne : part ≠ ".." := Ne.symm habove.1
    rw [List.foldl_cons, ih habove.2, enter]
    by_cases hskip : part = "" ∨ part = "."
    · have hname : ¬IsName part := fun h => hskip.elim h.1 h.2.1
      rw [if_pos hskip, List.filter_cons_of_neg (by simpa using hname)]
    · have hname : IsName part := ⟨fun h => hskip (.inl h), fun h => hskip (.inr h), hne⟩
      rw [if_neg hskip, if_neg hne, List.filter_cons_of_pos (by simpa using hname),
        List.reverse_cons, List.append_assoc, List.singleton_append]

theorem pathNames_of_noAbove {path : String} (habove : ".." ∉ pathParts path) :
    pathNames path = (pathParts path).filter (IsName ·) := by
  rw [pathNames_eq, foldl_enter habove, List.append_nil, List.reverse_reverse]

/-- The names of a path without `..` come behind those of the directory. -/
theorem pathNames_join {directory path : String} (hpath : path.toList.head? ≠ some '/')
    (habove : ".." ∉ pathParts path) :
    pathNames (join directory path) = pathNames directory ++ pathNames path := by
  obtain ⟨front, hjoin, hdirectory⟩ := exists_pathParts_join hpath
  have hfront : (pathParts directory).foldl enter [] = front.foldl enter [] := by
    cases hdirectory with
    | inl h => rw [h]
    | inr h =>
      rw [h, List.foldl_append]
      rfl
  rw [pathNames_of_noAbove habove, pathNames_eq, pathNames_eq, hjoin, List.foldl_append,
    foldl_enter habove, hfront, List.reverse_append, List.reverse_reverse]

/-! ## Files -/

theorem findFrom_cons (above : List Directory) (d : Directory) (part : String)
    (parts : List String) :
    findFrom above d (part :: parts) =
      if part = "" ∨ part = "." then findFrom above d parts
      else if part = ".." then findFrom above.tail (above.headD d) parts
      else
        match d.child? part with
        | some (.folder inside) => findFrom (d :: above) inside parts
        | some (.file content) => if parts.isEmpty then some (.file content) else none
        | none => none := by
  rw [findFrom.eq_def]
  cases above <;> rfl

/-- A path without `..` does not depend on what is around the directory. -/
theorem findFrom_of_noAbove {parts : List String} (habove : ".." ∉ parts)
    (above : List Directory) (d : Directory) : findFrom above d parts = findFrom [] d parts := by
  induction parts generalizing above d with
  | nil => rfl
  | cons part parts ih =>
    rw [List.mem_cons, not_or] at habove
    rw [findFrom_cons, findFrom_cons]
    split
    · exact ih habove.2 above d
    · rw [if_neg (Ne.symm habove.1), if_neg (Ne.symm habove.1)]
      cases d.child? part with
      | none => rfl
      | some entry =>
        cases entry with
        | file content => rfl
        | folder inside =>
          exact (ih habove.2 _ inside).trans (ih habove.2 _ inside).symm

/-- A path is followed from the directory that its first part names. -/
theorem findFrom_append {front parts : List String} (hparts : parts ≠ []) (habove : ".." ∉ parts)
    (above : List Directory) (d : Directory) :
    findFrom above d (front ++ parts) =
      match findFrom above d front with
      | some (.folder inside) => findFrom [] inside parts
      | _ => none := by
  induction front generalizing above d with
  | nil => exact findFrom_of_noAbove habove above d
  | cons part front ih =>
    rw [List.cons_append, findFrom_cons, findFrom_cons]
    split
    · exact ih above d
    · split
      · exact ih above.tail (above.headD d)
      · cases d.child? part with
        | none => rfl
        | some entry =>
          cases entry with
          | folder inside => exact ih (d :: above) inside
          | file content =>
            -- A file on the way is not what the path names, as more parts follow.
            have hmore : (front ++ parts).isEmpty = false := by simp [hparts]
            dsimp only
            rw [hmore]
            cases front.isEmpty <;> rfl

theorem fileAt_append {front parts : List String} (hparts : parts ≠ []) (habove : ".." ∉ parts)
    (root : Directory) :
    root.fileAt (front ++ parts) = (root.folderAt front).bind (·.fileAt parts) := by
  rw [fileAt, folderAt, find, find, findFrom_append hparts habove]
  cases findFrom [] root front with
  | none => rfl
  | some entry => cases entry <;> rfl

/-- An empty part at the end of a path says that it is a directory. -/
theorem folderAt_append_empty (front : List String) (root : Directory) :
    root.folderAt (front ++ [""]) = root.folderAt front := by
  rw [folderAt, folderAt, find, find, findFrom_append (by simp) (by decide)]
  cases findFrom [] root front with
  | none => rfl
  | some entry => cases entry <;> rfl

theorem pathParts_ne_nil (path : String) : pathParts path ≠ [] := by
  rw [pathParts, Text.split, Ne, List.map_eq_nil_iff]
  exact Text.splitAt_ne_nil _ _

/-- A joined path without `..` names a file in the directory. -/
theorem fileAt_join {directory path : String} (hpath : path.toList.head? ≠ some '/')
    (habove : ".." ∉ pathParts path) (root : Directory) :
    root.fileAt (pathParts (join directory path)) =
      (root.folderAt (pathParts directory)).bind (·.fileAt (pathParts path)) := by
  obtain ⟨front, hjoin, hdirectory⟩ := exists_pathParts_join hpath
  rw [hjoin, fileAt_append (pathParts_ne_nil path) habove]
  cases hdirectory with
  | inl h => rw [h]
  | inr h => rw [h, folderAt_append_empty]

end Directory

end CivilTime
