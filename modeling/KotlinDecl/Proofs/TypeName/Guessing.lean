import KotlinDecl.Proofs.Drafting
import KotlinDecl.Proofs.Writer.Lines

namespace KotlinDecl

namespace Text

theorem splitDots_eq (cs : List Char) : splitDots cs = cs.splitOn '.' := by
  induction cs with
  | nil => rfl
  | cons c cs ih =>
      obtain ⟨piece, pieces, hcs⟩ := List.exists_cons_of_ne_nil (List.splitOn_ne_nil '.' cs)
      rw [List.splitOn_cons_eq_if_modifyHead, hcs]
      rw [hcs] at ih
      by_cases hc : c = '.'
      · rw [hc, splitDots, ih]
        rfl
      · rw [splitDots, ih, if_neg (mt beq_iff_eq.1 hc)]
        · rfl
        · exact hc

theorem toList_dotted (pieces : List String) :
    (dotted pieces).toList = ['.'].intercalate (pieces.map String.toList) :=
  String.toList_intercalate

theorem splitDots_dotted {pieces : List String} (hne : pieces ≠ [])
    (h : ∀ p ∈ pieces, '.' ∉ p.toList) :
    splitDots (dotted pieces).toList = pieces.map String.toList := by
  rw [splitDots_eq, toList_dotted, List.splitOn_intercalate]
  · exact List.forall_mem_map.2 h
  · simpa using hne

theorem dotted_splitDots (s : String) :
    dotted ((splitDots s.toList).map String.ofList) = s := by
  apply String.toList_injective
  rw [toList_dotted, splitDots_eq, List.map_map]
  have hid : String.toList ∘ String.ofList = id := funext fun _ => String.toList_ofList
  rw [hid, List.map_id, List.intercalate_splitOn]

theorem not_mem_splitDots {s : String} {p : String}
    (h : p ∈ (splitDots s.toList).map String.ofList) : '.' ∉ p.toList := by
  obtain ⟨cs, hcs, rfl⟩ := List.mem_map.1 h
  rw [splitDots_eq] at hcs
  rw [String.toList_ofList]
  exact not_mem_of_mem_splitOn hcs

theorem dotted_cons {p : String} {ps : List String} (h : ps ≠ []) :
    dotted (p :: ps) = p ++ "." ++ dotted ps := by
  obtain ⟨q, qs, rfl⟩ := List.exists_cons_of_ne_nil h
  exact String.intercalate_cons_cons

theorem dotted_append {ps qs : List String} (hp : ps ≠ []) (hq : qs ≠ []) :
    dotted (ps ++ qs) = dotted (dotted ps :: qs) := by
  induction ps with
  | nil => exact absurd rfl hp
  | cons p ps ih =>
      cases ps with
      | nil =>
          have hp : dotted [p] = p := String.intercalate_singleton
          rw [hp]
          rfl
      | cons r rs =>
          have hne : r :: rs ≠ [] := List.cons_ne_nil r rs
          have hne' : (r :: rs) ++ qs ≠ [] := List.append_ne_nil_of_left_ne_nil hne qs
          rw [List.cons_append, dotted_cons hne', ih hne, dotted_cons hq, dotted_cons hq,
            dotted_cons hne]
          simp only [String.append_assoc]

theorem dotted_eq_empty_iff {ps : List String} : dotted ps = "" ↔ ps = [] ∨ ps = [""] := by
  cases ps with
  | nil => simp [dotted]
  | cons p ps =>
      cases ps with
      | nil =>
          have hp : dotted [p] = p := String.intercalate_singleton
          simp [hp]
      | cons q qs =>
          have hne : dotted (p :: q :: qs) ≠ "" := by
            rw [dotted_cons (List.cons_ne_nil q qs)]
            intro h
            have hlength := congrArg (fun s => s.toList.length) h
            simp at hlength
          simp [hne]

end Text

namespace TypeName

open Text

variable {unit : IndentUnit} {s : String} {c : TypeName}

theorem mapM_asName {place : NamePlace} {names ns : List String} :
    (names.map Value.str).mapM (·.asName unit place) = .ok ns ↔
      (∀ n ∈ names, isName n = true) ∧ ns = names := by
  induction names generalizing ns with
  | nil =>
      constructor
      · intro h
        cases h
        exact ⟨List.forall_mem_nil _, rfl⟩
      · rintro ⟨_, rfl⟩
        rfl
  | cons n names ih =>
      rw [List.map_cons, List.mapM_cons]
      constructor
      · intro h
        obtain ⟨m, hm, hrest⟩ := ok_of_bind h
        obtain ⟨hn, hname⟩ := Value.isName_of_asName hm
        cases hn
        obtain ⟨ms, hms, hns⟩ := ok_of_bind hrest
        obtain ⟨hnames, rfl⟩ := ih.1 hms
        exact ⟨List.forall_mem_cons.2 ⟨hname, hnames⟩, (Except.ok.inj hns).symm⟩
      · rintro ⟨h, rfl⟩
        obtain ⟨hname, hnames⟩ := List.forall_mem_cons.1 h
        rw [Draft.asName_str hname, ih.2 ⟨hnames, rfl⟩]
        rfl

theorem ofNames_eq_ok_iff {package : Option String} {names : List String} {nullable : Bool} :
    ofNames unit package (names.map .str) nullable = .ok c ↔
      names ≠ [] ∧ (∀ n ∈ names, isName n = true) ∧ c = .named package names nullable := by
  cases names with
  | nil =>
      refine iff_of_false ?_ (fun h => h.1 rfl)
      intro h
      cases h
  | cons n names =>
      constructor
      · intro h
        obtain ⟨ns, hns, h⟩ := ok_of_bind h
        obtain ⟨hnames, rfl⟩ := mapM_asName.1 hns
        cases h
        exact ⟨List.cons_ne_nil n names, hnames, rfl⟩
      · rintro ⟨_, hnames, rfl⟩
        show ((n :: names).map Value.str).mapM _ >>= _ = _
        rw [mapM_asName.2 ⟨hnames, rfl⟩]
        rfl

/-- How a dotted name is cut: capitals begin with the first of the names. -/
structure Cut (segments names : List String) : Prop where
  undotted : ∀ p ∈ segments ++ names, '.' ∉ p.toList
  small : ∀ p ∈ segments, isCapitalized p.toList = false
  capital : ∃ n ∈ names.head?, isCapitalized n.toList = true

theorem Cut.names_ne_nil {segments names : List String} (h : Cut segments names) : names ≠ [] := by
  rintro rfl
  obtain ⟨_, ⟨⟩, _⟩ := h.capital

theorem Cut.splitDots {segments names : List String} (h : Cut segments names) :
    splitDots (dotted (segments ++ names)).toList = (segments ++ names).map String.toList :=
  splitDots_dotted (List.append_ne_nil_of_right_ne_nil _ h.names_ne_nil) h.undotted

/-- Whether a piece goes to the package if all in front of it do. -/
def isSmall (p : String) : Bool := !isCapitalized p.toList

theorem Cut.ofPieces {pieces : List String} (h : ∀ p ∈ pieces, '.' ∉ p.toList)
    (hne : pieces.dropWhile isSmall ≠ []) :
    Cut (pieces.takeWhile isSmall) (pieces.dropWhile isSmall) := by
  refine ⟨?_, fun p hp => ?_, ?_⟩
  · rwa [List.takeWhile_append_dropWhile]
  · have hsmall := List.all_eq_true.1 List.all_takeWhile p hp
    simpa [isSmall] using hsmall
  · have hhead : isSmall _ = false := List.head_dropWhile_not isSmall hne
    exact ⟨_, List.head?_eq_some_head hne, by simpa [isSmall] using hhead⟩

theorem Cut.pieces {segments names : List String} (h : Cut segments names) :
    (segments ++ names).takeWhile isSmall = segments ∧
      (segments ++ names).dropWhile isSmall = names := by
  obtain ⟨n, hn, hcapital⟩ := h.capital
  obtain ⟨ns, rfl⟩ := List.head?_eq_some_iff.1 hn
  have hsmall : ∀ p ∈ segments, isSmall p = true := by
    intro p hp
    rw [isSmall, h.small p hp]
    rfl
  rw [List.takeWhile_append_of_pos hsmall, List.dropWhile_append_of_pos hsmall]
  simp [isSmall, hcapital]

theorem guess_of_pieces {pieces : List String}
    (h : splitDots s.toList = pieces.map String.toList) :
    guess unit (.str s) =
      if pieces.dropWhile isSmall = [] then .error (.configuration (.noGuess s) none)
      else ofNames unit (some (dotted (pieces.takeWhile isSmall)))
        ((pieces.dropWhile isSmall).map .str) false := by
  have hp : (fun cs => !isCapitalized cs) ∘ String.toList = isSmall := rfl
  have htexts (ps : List String) : (ps.map String.toList).map String.ofList = ps := by simp
  have hvalues (ps : List String) :
      (ps.map String.toList).map (fun n => Value.str (String.ofList n)) = ps.map .str := by simp
  simp only [guess, h, List.takeWhile_map, List.dropWhile_map, hp, htexts]
  cases hd : pieces.dropWhile isSmall with
  | nil => rfl
  | cons n ns =>
      rw [if_neg (List.cons_ne_nil n ns), ← hvalues]
      rfl

/-- A guess cuts the name in front of its first capitalized piece. -/
theorem guess_eq_ok_iff :
    guess unit (.str s) = .ok c ↔ ∃ segments names, Cut segments names ∧
      s = dotted (segments ++ names) ∧ (∀ n ∈ names, isName n = true) ∧
        c = .named (some (dotted segments)) names false := by
  constructor
  · intro h
    have hpieces : splitDots s.toList =
        ((splitDots s.toList).map String.ofList).map String.toList := by
      simp
    rw [guess_of_pieces hpieces] at h
    obtain ⟨hne, h⟩ := ok_of_check h nofun
    obtain ⟨_, hnames, rfl⟩ := ofNames_eq_ok_iff.1 h
    refine ⟨_, _, Cut.ofPieces (fun p => not_mem_splitDots) hne, ?_, hnames, rfl⟩
    rw [List.takeWhile_append_dropWhile, dotted_splitDots]
  · rintro ⟨segments, names, hcut, rfl, hnames, rfl⟩
    obtain ⟨htake, hdrop⟩ := hcut.pieces
    rw [guess_of_pieces hcut.splitDots, htake, hdrop, if_neg hcut.names_ne_nil]
    exact ofNames_eq_ok_iff.2 ⟨hcut.names_ne_nil, hnames, rfl⟩

/-- A package of one empty segment is the empty package. -/
theorem Cut.exists_segments {segments names : List String} (h : Cut segments names) :
    ∃ segments', segments' ≠ [""] ∧ dotted segments' = dotted segments ∧ Cut segments' names := by
  by_cases hs : segments = [""]
  · subst hs
    refine ⟨[], by simp, rfl, ?_, List.forall_mem_nil _, h.capital⟩
    exact fun p hp => h.undotted p (List.mem_append_right _ hp)
  · exact ⟨segments, hs, rfl, h⟩

theorem canonicalName_dotted {segments names : List String} (hs : segments ≠ [""])
    (hn : names ≠ []) :
    canonicalName (some (dotted segments)) names = dotted (segments ++ names) := by
  by_cases hempty : segments = []
  · subst hempty
    rfl
  · have hne : dotted segments ≠ "" := by
      rw [Ne, dotted_eq_empty_iff, not_or]
      exact ⟨hempty, hs⟩
    rw [canonicalName, if_neg (by simpa using hne), dotted_append hempty hn]

/-- A class is guessed from its canonical name exactly if it is not nullable, no simple name has a
dot in it, the first one is capitalized and no segment of the package is. The package may have no
segments. -/
theorem guess_canonicalName_iff {unit : IndentUnit} {package : String} {names : List String}
    {nullable : Bool} {c : TypeName}
    (hc : ofNames unit (some package) (names.map .str) nullable = .ok c) :
    guess unit (.str (canonicalName (some package) names)) = .ok c ↔
      nullable = false ∧ ∃ segments, package = dotted segments ∧ Cut segments names := by
  obtain ⟨hne, hnames, rfl⟩ := ofNames_eq_ok_iff.1 hc
  constructor
  · intro h
    obtain ⟨segments, names', hcut, _, _, heq⟩ := guess_eq_ok_iff.1 h
    cases heq
    exact ⟨rfl, segments, rfl, hcut⟩
  · rintro ⟨rfl, segments, rfl, hcut⟩
    obtain ⟨segments', hs, hdotted, hcut⟩ := hcut.exists_segments
    rw [← hdotted, canonicalName_dotted hs hne]
    exact guess_eq_ok_iff.2 ⟨segments', names, hcut, rfl, hnames, rfl⟩

/-- A nested class with a quoted name in a package of three segments, one of which begins with an
underscore. -/
theorem guess_canonicalName_iff_nested :
    let unit : IndentUnit := .ok "  "
    let names := ["Map", "\x60in\x60", "entry_1"]
    let c : TypeName := .named (some "kotlin._x.collections") names false
    ofNames unit (some "kotlin._x.collections") (names.map .str) false = .ok c ∧
      Cut ["kotlin", "_x", "collections"] names ∧
      guess unit (.str (canonicalName (some "kotlin._x.collections") names)) = .ok c := by
  intro unit names c
  have hc : ofNames unit (some "kotlin._x.collections") (names.map .str) false = .ok c := rfl
  have hcut : Cut ["kotlin", "_x", "collections"] names :=
    ⟨by decide, by decide, "Map", rfl, by decide⟩
  exact ⟨hc, hcut, (guess_canonicalName_iff hc).2 ⟨rfl, _, rfl, hcut⟩⟩

theorem isCapitalized_dotted (p : String) (ps : List String) :
    isCapitalized (dotted (p :: ps)).toList = isCapitalized p.toList := by
  -- Behind an empty piece the name begins with a dot, which is no capital either.
  have hdot : isCapitalized ['.'] = false := by decide
  cases ps with
  | nil => rw [toList_dotted, List.map_singleton, List.intercalate_singleton]
  | cons q qs =>
      rw [dotted_cons (List.cons_ne_nil q qs), String.toList_append, String.toList_append]
      cases p.toList with
      | nil => exact hdot
      | cons c cs => rfl

def opensWithDot : List Char → Bool
  | '.' :: rest => isCapitalized rest
  | _ => false

theorem opensWithDot_of_isCapitalized {cs : List Char} (h : isCapitalized cs = true) :
    opensWithDot cs = false := by
  have hdot : Text.isUpper '.' = false := by decide
  cases cs with
  | nil => rfl
  | cons c cs =>
      have hc : c ≠ '.' := by
        rintro rfl
        exact absurd (hdot.symm.trans h) Bool.false_ne_true
      simp [opensWithDot, hc]

theorem opensWithDot_dotted {p : String} (hp : '.' ∉ p.toList) (q : String) (qs : List String) :
    opensWithDot (dotted (p :: q :: qs)).toList = true ↔
      p = "" ∧ isCapitalized q.toList = true := by
  rw [dotted_cons (List.cons_ne_nil q qs), String.toList_append, String.toList_append]
  cases hcs : p.toList with
  | nil =>
      obtain rfl : p = "" := String.toList_injective hcs
      have hopens : opensWithDot ([] ++ ".".toList ++ (dotted (q :: qs)).toList) =
        isCapitalized (dotted (q :: qs)).toList := rfl
      rw [hopens, isCapitalized_dotted]
      simp
  | cons c cs =>
      have hne : p ≠ "" := by
        rintro rfl
        cases hcs
      have hc : c ≠ '.' := by
        rintro rfl
        exact hp (hcs ▸ List.mem_cons_self)
      simp [opensWithDot, hne, hc]

theorem Cut.opensWithDot_iff {segments names : List String} (h : Cut segments names) :
    opensWithDot (dotted (segments ++ names)).toList = true ↔ segments = [""] := by
  obtain ⟨n, hn, hcapital⟩ := h.capital
  obtain ⟨ns, rfl⟩ := List.head?_eq_some_iff.1 hn
  cases segments with
  | nil =>
      have hfirst : isCapitalized (dotted (n :: ns)).toList = true := by
        rw [isCapitalized_dotted, hcapital]
      simp [opensWithDot_of_isCapitalized hfirst]
  | cons p ps =>
      have hp : '.' ∉ p.toList := h.undotted p List.mem_cons_self
      cases ps with
      | nil =>
          show opensWithDot (dotted (p :: n :: ns)).toList = true ↔ _
          rw [opensWithDot_dotted hp]
          simp [hcapital]
      | cons q qs =>
          have hq : isCapitalized q.toList = false := h.small q (by simp)
          show opensWithDot (dotted (p :: q :: (qs ++ n :: ns))).toList = true ↔ _
          rw [opensWithDot_dotted hp]
          simp [hq]

/-- The canonical name of a guess is the name that was guessed from, unless that begins with a dot
and a capital. Then the package is empty, and the dot is gone. -/
theorem canonicalName_of_guess {unit : IndentUnit} {s : String} {c : TypeName}
    (h : guess unit (.str s) = .ok c) :
    ∃ package names, c = .named (some package) names false ∧
      (opensWithDot s.toList = false → canonicalName (some package) names = s) ∧
      (opensWithDot s.toList = true →
        package = "" ∧ "." ++ canonicalName (some package) names = s) := by
  obtain ⟨segments, names, hcut, rfl, _, rfl⟩ := guess_eq_ok_iff.1 h
  refine ⟨_, names, rfl, fun hopens => ?_, fun hopens => ?_⟩
  · have hs : segments ≠ [""] := by
      intro hs
      rw [hcut.opensWithDot_iff.2 hs] at hopens
      cases hopens
    exact canonicalName_dotted hs hcut.names_ne_nil
  · obtain rfl := hcut.opensWithDot_iff.1 hopens
    have hempty : dotted [""] = "" := rfl
    refine ⟨hempty, ?_⟩
    rw [List.singleton_append, dotted_cons hcut.names_ne_nil, hempty]
    rfl

/-- Empty segments stay, at the beginning and at the end of the package. -/
theorem canonicalName_of_guess_empty_segments :
    let unit : IndentUnit := .ok "  "
    let c : TypeName := .named (some ".a.") ["B", "c"] false
    guess unit (.str ".a..B.c") = .ok c ∧ canonicalName (some ".a.") ["B", "c"] = ".a..B.c" := by
  intro unit c
  have h : guess unit (.str ".a..B.c") = .ok c := rfl
  obtain ⟨package, names, hc, hname, _⟩ := canonicalName_of_guess h
  obtain ⟨hpackage, rfl, _⟩ := TypeName.named.inj hc
  obtain rfl := Option.some.inj hpackage
  exact ⟨h, hname (by decide)⟩

/-- A dot in front of all counts as an empty package, which is not written. -/
theorem canonicalName_guess_loses_dot :
    let unit : IndentUnit := .ok "  "
    guess unit (.str ".A") = .ok (.named (some "") ["A"] false) ∧
      canonicalName (some "") ["A"] = "A" ∧ "A" ≠ ".A" :=
  ⟨rfl, rfl, by decide⟩

end TypeName

end KotlinDecl
