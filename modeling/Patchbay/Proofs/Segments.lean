import Patchbay.Proofs.Texts

/-! Patch paths are exactly the texts that segments make with slashes between them. Cutting a path
gives back the segments that it was made of, from the front as from the end. -/

namespace Patchbay

/-! ### Cutting and joining -/

namespace Text

variable {separator : Char} {cs front last : List Char}

theorem cut_eq_splitOn : cut separator cs = cs.splitOn separator := by
  induction cs with
  | nil => rfl
  | cons c cs ih =>
    rw [cut, ih, List.splitOn_cons_eq_if_modifyHead]
    by_cases h : c = separator
    · simp [h]
    · rw [if_neg h, if_neg (by simpa using h)]
      cases hrest : cs.splitOn separator with
      | nil => exact absurd hrest (List.splitOn_ne_nil separator cs)
      | cons segment rest => rfl

theorem takeWhile_reverse_append (h : separator ∉ last) (rest : List Char) :
    (last.reverse ++ rest).takeWhile (· ≠ separator) =
      last.reverse ++ rest.takeWhile (· ≠ separator) := by
  refine List.takeWhile_append_of_pos fun c hc => decide_eq_true ?_
  rintro rfl
  exact h (List.mem_reverse.1 hc)

theorem afterLast_eq_self (h : separator ∉ cs) : afterLast separator cs = cs := by
  have hall := takeWhile_reverse_append h []
  rw [List.append_nil] at hall
  rw [afterLast, hall]
  simp

theorem afterLast_append_cons (h : separator ∉ last) :
    afterLast separator (front ++ separator :: last) = last := by
  rw [afterLast, List.reverse_append, List.reverse_cons, List.append_assoc,
    takeWhile_reverse_append h]
  simp

theorem exists_eq_append_cons (h : separator ∈ cs) :
    ∃ front last, cs = front ++ separator :: last ∧ separator ∉ last := by
  obtain ⟨last, front, hreverse, hlast⟩ := List.eq_append_cons_of_mem (List.mem_reverse.2 h)
  refine ⟨front.reverse, last.reverse, ?_, mt List.mem_reverse.1 hlast⟩
  rw [← List.reverse_reverse cs, hreverse]
  simp

/-- The last piece of a cut is the one that is found from the end. -/
theorem getLast?_cut : (cut separator cs).getLast? = some (afterLast separator cs) := by
  rw [cut_eq_splitOn]
  by_cases h : separator ∈ cs
  · obtain ⟨front, last, rfl, hlast⟩ := exists_eq_append_cons h
    rw [afterLast_append_cons hlast, List.splitOn_append_cons_self,
      List.splitOn_eq_singleton hlast, List.getLast?_concat]
  · rw [afterLast_eq_self h, List.splitOn_eq_singleton h, List.getLast?_singleton]

end Text

/-! ### Paths -/

namespace PatchPath

variable {s name : String} {names : List String} {c : Char} {path : PatchPath}

/-- A text that may stand between slashes. -/
structure IsSegment (name : String) : Prop where
  nonempty : name ≠ ""
  allowed : ∀ c ∈ name.toList, c.isAlphanum ∨ c ∈ ['-', '_', '.', '@']

theorem isSegmentChar_iff : isSegmentChar c ↔ c.isAlphanum ∨ c ∈ ['-', '_', '.', '@'] := by
  simp [isSegmentChar, or_assoc]

theorem isSegment_iff : IsSegment name ↔ name ≠ "" ∧ ∀ c ∈ name.toList, isSegmentChar c := by
  simp only [isSegmentChar_iff]
  exact ⟨fun h => ⟨h.nonempty, h.allowed⟩, fun h => ⟨h.1, h.2⟩⟩

instance : Decidable (IsSegment name) :=
  decidable_of_iff (name ≠ "" ∧ name.toList.all isSegmentChar)
    (by rw [List.all_eq_true, isSegment_iff])

theorem isSegment_ofList_iff {segment : List Char} :
    IsSegment (String.ofList segment) ↔
      segment ≠ [] ∧ ∀ c ∈ segment, isSegmentChar c = true := by
  have hempty : String.ofList segment = "" ↔ segment = [] := by
    rw [← String.toList_inj, String.toList_ofList]
    rfl
  rw [isSegment_iff, String.toList_ofList, Ne, hempty]

theorem IsSegment.slash_notMem (h : IsSegment name) : '/' ∉ name.toList :=
  fun hmem => absurd (h.allowed '/' hmem) (by decide)

/-- The texts between the slashes of a text, whether or not it is a path. -/
def pieces (s : String) : List String := (Text.cut '/' s.toList).map String.ofList

theorem intercalate_pieces : "/".intercalate (pieces s) = s := by
  rw [← String.toList_inj, String.toList_intercalate, pieces, List.map_map]
  have hback : String.toList ∘ String.ofList = id := funext fun _ => String.toList_ofList
  rw [hback, List.map_id, Text.cut_eq_splitOn]
  exact List.intercalate_splitOn '/'

theorem pieces_intercalate (hne : names ≠ []) (hslash : ∀ name ∈ names, '/' ∉ name.toList) :
    pieces ("/".intercalate names) = names := by
  have hcut : Text.cut '/' ("/".intercalate names).toList = names.map String.toList := by
    rw [String.toList_intercalate, Text.cut_eq_splitOn]
    exact List.splitOn_intercalate '/' (by simpa using hslash) (by simpa using hne)
  have hback : String.ofList ∘ String.toList = id := funext fun _ => String.ofList_toList
  rw [pieces, hcut, List.map_map, hback, List.map_id]

theorem pieces_ne_nil : pieces s ≠ [] :=
  mt List.map_eq_nil_iff.1 (Text.cut_ne_nil '/' s.toList)

theorem fault?_eq_none_iff_isSegment : fault? s = none ↔ ∀ name ∈ pieces s, IsSegment name := by
  simp only [fault?_eq_none_iff, pieces, List.forall_mem_map, isSegment_ofList_iff]

theorem getLast?_segments : path.segments.getLast? = some path.baseName := by
  rw [segments, List.getLast?_map, Text.getLast?_cut]
  rfl

theorem isLocal_iff : path.isLocal ↔ 2 ≤ path.segments.length ∧ path.segments.head? = some "@" := by
  rw [isLocal, Option.isSome_iff_exists]
  simp only [Text.after?_eq_some_iff]
  constructor
  · rintro ⟨rest, htext⟩
    have hcut : Text.cut '/' path.text.toList = ['@'] :: Text.cut '/' rest := by
      simp [htext, Text.cut]
    have hlength := List.length_pos_iff.2 (Text.cut_ne_nil '/' rest)
    rw [segments, hcut, List.length_map]
    exact ⟨Nat.succ_le_succ hlength, rfl⟩
  · rintro ⟨hlength, hhead⟩
    obtain ⟨tail, hsegments⟩ := List.head?_eq_some_iff.1 hhead
    rw [hsegments, List.length_cons] at hlength
    obtain ⟨second, rest, rfl⟩ := List.exists_cons_of_length_pos (Nat.le_of_succ_le_succ hlength)
    -- the text is made of the segments again, so that a slash follows the first of them
    have htext : "/".intercalate path.segments = path.text := intercalate_pieces
    rw [hsegments, String.intercalate_cons_cons] at htext
    refine ⟨("/".intercalate (second :: rest)).toList, ?_⟩
    rw [← htext, String.toList_append, String.toList_append]
    rfl

/-- Segments with slashes between them are a path, which is cut into the same segments; the last one
is its base name, and it is local if an at sign is the first of several. Every path is made of its
own segments in this way. -/
theorem joined_segments :
    (∀ names : List String, names ≠ [] → (∀ name ∈ names, IsSegment name) →
      ∃ path, PatchPath.parse ("/".intercalate names) = .ok path ∧ path.segments = names ∧
        names.getLast? = some path.baseName ∧
        (path.isLocal ↔ 2 ≤ names.length ∧ names.head? = some "@")) ∧
    ∀ s path, PatchPath.parse s = .ok path →
      s = "/".intercalate path.segments ∧ path.segments ≠ [] ∧
        ∀ name ∈ path.segments, IsSegment name := by
  constructor
  · intro names hne hnames
    have hpieces := pieces_intercalate hne fun name hname => (hnames name hname).slash_notMem
    have hvalid : fault? ("/".intercalate names) = none := by
      rw [fault?_eq_none_iff_isSegment, hpieces]
      exact hnames
    obtain ⟨path, hpath⟩ := exists_parse_iff.2 hvalid
    obtain rfl : path.segments = names := by
      rw [← hpieces, ← text_of_parse hpath]
      rfl
    exact ⟨path, hpath, rfl, getLast?_segments, isLocal_iff⟩
  · intro s path h
    obtain rfl := text_of_parse h
    exact ⟨intercalate_pieces.symm, pieces_ne_nil, fault?_eq_none_iff_isSegment.1 path.valid⟩

theorem joined_deskLamp :
    (∀ name ∈ ["@", "desk", "lamp-2.0"], IsSegment name) ∧
      ∃ path, PatchPath.parse "@/desk/lamp-2.0" = .ok path ∧
        path.segments = ["@", "desk", "lamp-2.0"] ∧ path.baseName = "lamp-2.0" ∧ path.isLocal ∧
        "/".intercalate path.segments = "@/desk/lamp-2.0" := by
  have hnames : ∀ name ∈ ["@", "desk", "lamp-2.0"], IsSegment name := by decide +kernel
  obtain ⟨path, hpath, hsegments, hbase, hlocal⟩ :=
    joined_segments.1 ["@", "desk", "lamp-2.0"] (by decide) hnames
  exact ⟨hnames, path, hpath, hsegments, (Option.some.inj hbase).symm,
    hlocal.2 ⟨by decide, rfl⟩, (joined_segments.2 _ path hpath).1.symm⟩

/-- An at sign alone is a path of one segment, and not local. -/
example : (PatchPath.mk "@" (by decide)).segments = ["@"] ∧
    (PatchPath.mk "@" (by decide)).isLocal = false := by
  decide +kernel

end PatchPath

end Patchbay
