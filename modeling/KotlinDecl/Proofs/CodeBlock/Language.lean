import KotlinDecl.Proofs.CodeBlock.Parsing
import Mathlib.Data.List.Chain
import Mathlib.Data.List.Forall2

namespace KotlinDecl

namespace Part

def isPlaceholder : Part → Bool
  | text _ | split _ => false
  | _ => true

def IsRun (p : Part) : Prop := ∃ s, p = text s ∧ s ≠ "" ∧ '%' ∉ s.toList

/-- Parts that a text falls into: placeholders, and runs of text that are as long as they can
be. -/
structure Cut (ps : List Part) : Prop where
  each : ∀ p ∈ ps, p.isPlaceholder = true ∨ p.IsRun
  apart : ps.IsChain fun p q => p.IsRun → ¬q.IsRun

theorem not_isRun_of_isPlaceholder {p : Part} (h : p.isPlaceholder = true) : ¬p.IsRun := by
  rintro ⟨s, rfl, _⟩
  cases h

theorem isRun_char {c : Char} (hc : c ≠ '%') : (text c.toString).IsRun := by
  refine ⟨_, rfl, by simp, ?_⟩
  simpa using hc.symm

theorem isRun_char_append {c : Char} (hc : c ≠ '%') {s : String} (h : (text s).IsRun) :
    (text (c.toString ++ s)).IsRun := by
  obtain ⟨t, ht, _, hs⟩ := h
  cases ht
  refine ⟨_, rfl, ?_, ?_⟩
  · simp
  · simpa using ⟨hc.symm, hs⟩

theorem Cut.tail {p : Part} {ps : List Part} (h : Cut (p :: ps)) : Cut ps :=
  ⟨fun q hq => h.each q (List.mem_cons_of_mem p hq), (List.isChain_cons.1 h.apart).2⟩

theorem Cut.placeholder {p : Part} {ps : List Part} (hp : p.isPlaceholder = true) (h : Cut ps) :
    Cut (p :: ps) := by
  refine ⟨List.forall_mem_cons.2 ⟨.inl hp, h.each⟩, List.isChain_cons.2 ⟨fun q _ hr => ?_, h.apart⟩⟩
  exact absurd hr (not_isRun_of_isPlaceholder hp)

/-- A character in front goes into the run that the parts begin with, or is a run of its own. -/
theorem Cut.char {c : Char} (hc : c ≠ '%') {ps : List Part} (h : Cut ps) :
    Cut (joinText [text c.toString] ps) := by
  cases ps with
  | nil => exact ⟨List.forall_mem_singleton.2 (.inr (isRun_char hc)), .singleton _⟩
  | cons p ps =>
      have hp := h.each p List.mem_cons_self
      obtain ⟨hnext, _⟩ := List.isChain_cons.1 h.apart
      cases p with
      | text s =>
          have hs : (text s).IsRun := hp.resolve_left nofun
          have hrun := isRun_char_append hc hs
          refine ⟨List.forall_mem_cons.2 ⟨.inr hrun, h.tail.each⟩, List.isChain_cons.2 ⟨?_, ?_⟩⟩
          · exact fun q hq _ => hnext q hq hs
          · exact h.tail.apart
      | split l =>
          rcases hp with hp | ⟨s, hs, _⟩
          · cases hp
          · cases hs
      | _ =>
          refine ⟨List.forall_mem_cons.2 ⟨.inr (isRun_char hc), h.each⟩, ?_⟩
          exact .cons_cons (fun _ => not_isRun_of_isPlaceholder rfl) h.apart

end Part

namespace Format

open KotlinDecl.Part (joinText placeholders)

inductive Scans : List Char → List Part → Prop
  | nil : Scans [] []
  | placeholder {l : Char} {p : Part} {cs : List Char} {ps : List Part}
    (hp : Part.ofLetter? l = some p) (h : Scans cs ps) : Scans ('%' :: l :: cs) (p :: ps)
  | char {c : Char} {cs : List Char} {ps : List Part} (hc : c ≠ '%') (h : Scans cs ps) :
    Scans (c :: cs) (joinText [.text c.toString] ps)

theorem Scans.scan_eq {cs : List Char} {ps : List Part} (h : Scans cs ps) :
    scan cs = ps.map .part := by
  induction h with
  | nil => rfl
  | placeholder hp _ ih => simp [scan, hp, ih]
  | char hc _ ih =>
      rw [scan, ih, consChar_parts]
      exact hc

theorem scans_of_scan {cs : List Char} {ps : List Part} (h : scan cs = ps.map .part) :
    Scans cs ps := by
  fun_induction scan cs generalizing ps with
  | case1 =>
      obtain rfl : ps = [] := by simpa using h.symm
      exact .nil
  | case2 =>
      cases ps with
      | nil => cases h
      | cons p ps => cases h
  | case3 c rest hc =>
      cases ps with
      | nil => cases h
      | cons p ps => cases h
  | case4 c rest p hc ih =>
      cases ps with
      | nil => cases h
      | cons q ps =>
          rw [List.map_cons, List.cons.injEq, Step.part.injEq] at h
          obtain ⟨rfl, h⟩ := h
          exact .placeholder hc (ih h)
  | case5 c rest hc ih =>
      obtain ⟨rs, hrs⟩ := parts_of_consChar h
      rw [hrs, consChar_parts] at h
      rw [← (List.map_inj_right fun _ _ => Step.part.inj).1 h]
      exact .char hc (ih hrs)

theorem spelling_of_ofLetter {l : Char} {p : Part} (h : Part.ofLetter? l = some p) :
    p.spelling.toList = ['%', l] := by
  unfold Part.ofLetter? at h
  split at h <;> cases h <;> rfl

theorem isPlaceholder_of_ofLetter {l : Char} {p : Part} (h : Part.ofLetter? l = some p) :
    p.isPlaceholder = true := by
  unfold Part.ofLetter? at h
  split at h <;> cases h <;> rfl

theorem Scans.cut {cs : List Char} {ps : List Part} (h : Scans cs ps) : Part.Cut ps := by
  induction h with
  | nil => exact ⟨List.forall_mem_nil _, .nil⟩
  | placeholder hp _ ih => exact ih.placeholder (isPlaceholder_of_ofLetter hp)
  | char hc _ ih => exact ih.char hc

theorem spelling_joinText (c : Char) (ps : List Part) :
    (joinText [.text c.toString] ps).flatMap (·.spelling.toList) =
      c :: ps.flatMap (·.spelling.toList) := by
  cases ps with
  | nil => simp [joinText, Part.spelling]
  | cons p ps => cases p <;> simp [joinText, Part.spelling]

theorem Scans.spelling {cs : List Char} {ps : List Part} (h : Scans cs ps) :
    ps.flatMap (·.spelling.toList) = cs := by
  induction h with
  | nil => rfl
  | placeholder hp _ ih => rw [List.flatMap_cons, ih, spelling_of_ofLetter hp]; rfl
  | char _ _ ih => rw [spelling_joinText, ih]

def argumentLetters : List (Char × Placeholder) :=
  [('L', .literal), ('S', .string), ('N', .name), ('T', .type)]

def plainLetters : List Char := ['%', 'W', '>', '<', '[', ']']

/-- A text is made of characters other than the percent sign and of placeholders. Those that take
an argument are listed. -/
inductive Composed : List Char → List Placeholder → Prop
  | nil : Composed [] []
  | char {c : Char} {cs : List Char} {ps : List Placeholder} (hc : c ≠ '%') (h : Composed cs ps) :
    Composed (c :: cs) ps
  | plain {l : Char} {cs : List Char} {ps : List Placeholder} (hl : l ∈ plainLetters)
    (h : Composed cs ps) : Composed ('%' :: l :: cs) ps
  | argument {l : Char} {p : Placeholder} {cs : List Char} {ps : List Placeholder}
    (hl : (l, p) ∈ argumentLetters) (h : Composed cs ps) : Composed ('%' :: l :: cs) (p :: ps)

theorem ofLetter_cases {l : Char} {p : Part} (h : Part.ofLetter? l = some p) :
    (l ∈ plainLetters ∧ p.placeholder? = none) ∨
      ∃ q, (l, q) ∈ argumentLetters ∧ p = .argument q := by
  unfold Part.ofLetter? at h
  split at h <;> cases h <;> simp [plainLetters, argumentLetters, Part.placeholder?]

theorem ofLetter_plain {l : Char} (h : l ∈ plainLetters) :
    ∃ p, Part.ofLetter? l = some p ∧ p.placeholder? = none := by
  simp only [plainLetters, List.mem_cons, List.not_mem_nil, or_false] at h
  rcases h with rfl | rfl | rfl | rfl | rfl | rfl <;> exact ⟨_, rfl, rfl⟩

theorem ofLetter_argument {l : Char} {p : Placeholder} (h : (l, p) ∈ argumentLetters) :
    Part.ofLetter? l = some (.argument p) := by
  simp only [argumentLetters, List.mem_cons, List.not_mem_nil, or_false, Prod.mk.injEq] at h
  rcases h with ⟨rfl, rfl⟩ | ⟨rfl, rfl⟩ | ⟨rfl, rfl⟩ | ⟨rfl, rfl⟩ <;> rfl

theorem placeholders_char (s : String) (ps : List Part) :
    placeholders (joinText [.text s] ps) = placeholders ps :=
  Part.placeholders_joinText [.text s] ps

theorem Scans.composed {cs : List Char} {ps : List Part} (h : Scans cs ps) :
    Composed cs (placeholders ps) := by
  induction h with
  | nil => exact .nil
  | placeholder hp _ ih =>
      rcases ofLetter_cases hp with ⟨hl, hn⟩ | ⟨q, hl, rfl⟩
      · rw [placeholders, List.filterMap_cons_none hn]
        exact .plain hl ih
      · exact .argument hl ih
  | char hc _ ih =>
      rw [placeholders_char]
      exact .char hc ih

theorem Composed.scans {cs : List Char} {qs : List Placeholder} (h : Composed cs qs) :
    ∃ ps, Scans cs ps ∧ placeholders ps = qs := by
  induction h with
  | nil => exact ⟨[], .nil, rfl⟩
  | char hc _ ih =>
      obtain ⟨ps, hs, hq⟩ := ih
      exact ⟨_, .char hc hs, (placeholders_char _ ps).trans hq⟩
  | plain hl _ ih =>
      obtain ⟨ps, hs, rfl⟩ := ih
      obtain ⟨p, hp, hn⟩ := ofLetter_plain hl
      exact ⟨p :: ps, .placeholder hp hs, List.filterMap_cons_none hn⟩
  | argument hl _ ih =>
      obtain ⟨ps, hs, rfl⟩ := ih
      exact ⟨_, .placeholder (ofLetter_argument hl) hs, rfl⟩

end Format

def Placeholder.admits : Placeholder → Value → Bool
  | .name, v => v.name?.isSome
  | .type, v => v.isType
  | _, _ => true

namespace Format

open KotlinDecl.Part (joinText placeholders)

variable {unit : IndentUnit}

/-- The placeholder can be given the argument: it is of the right sort, and in the place of a
string it has a text. -/
structure Takes (unit : IndentUnit) (p : Placeholder) (v : Value) : Prop where
  admits : p.admits v = true
  text : p = .string → ∃ s, v.text unit = .ok s

def bound (unit : IndentUnit) : Placeholder → Value → Value
  | .string, .null => .null
  | .string, v => .str ((v.text unit).toOption.getD "")
  | .name, v => .str (v.name?.getD "")
  | _, v => v

/-- The argument itself fails: its text cannot be had, or nothing can be said of it in a message
that refuses it. -/
def Spoils (unit : IndentUnit) (e : Error) : Placeholder → Value → Prop
  | .literal, _ => False
  | .string, v => v.text unit = .error e
  | p, v => p.admits v = false ∧ v.inspected unit = .error e

theorem bindOne_string (format : Except Error (Option String)) {v : Value} (hv : v ≠ .null) :
    bindOne format .string (v.forms unit) = (v.text unit).map .str := by
  cases v with
  | null => exact absurd rfl hv
  | type t => cases t <;> rfl
  | code c => cases c; rfl
  | decl n d => cases d <;> rfl
  | _ => rfl

theorem bound_string {v : Value} (hv : v ≠ .null) {s : String} (h : v.text unit = .ok s) :
    bound unit .string v = .str s := by
  cases v with
  | null => exact absurd rfl hv
  | _ => simp [bound, h, Except.toOption]

theorem bindOne_of_takes {p : Placeholder} {v : Value} (h : Takes unit p v)
    (format : Except Error (Option String)) :
    bindOne format p (v.forms unit) = .ok (bound unit p v) := by
  cases p with
  | literal => exact congrArg Except.ok (Value.value_forms unit v)
  | string =>
      obtain ⟨s, hs⟩ := h.text rfl
      by_cases hv : v = .null
      · rw [hv]
        rfl
      · rw [bindOne_string format hv, bound_string hv hs, hs]
        rfl
  | name =>
      obtain ⟨s, hs⟩ := Option.isSome_iff_exists.1 h.admits
      simp [bindOne, bound, Value.value_forms, hs]
  | type =>
      cases v with
      | type t => simp [bindOne, bound, Value.value_forms]
      | _ => cases h.admits

theorem takes_iff_admits {p : Placeholder} (hp : p ≠ .string) {v : Value} :
    Takes unit p v ↔ p.admits v = true :=
  ⟨Takes.admits, fun h => ⟨h, fun hs => absurd hs hp⟩⟩

theorem faulty_of_not_admits {p : Placeholder} (hp : p ≠ .string) {v : Value}
    (h : p.admits v = false) (fault : String → FormatFault) (o : Option String) :
    ∃ e, (do faulty (.ok o) (fault (← (v.forms unit).inspected)) : Except Error Value) = .error e ∧
      ((∃ fault, e = .codeFormat fault o) ∨ Spoils unit e p v) := by
  cases hi : (v.forms unit).inspected with
  | ok s => exact ⟨_, rfl, .inl ⟨_, rfl⟩⟩
  | error e =>
      refine ⟨e, rfl, .inr ?_⟩
      cases p with
      | literal => cases h
      | string => exact absurd rfl hp
      | name | type => exact ⟨h, hi⟩

/-- What is not taken is refused, and the refusal is a fault of the format unless the argument
itself fails. -/
theorem bindOne_of_not_takes {p : Placeholder} {v : Value} (h : ¬Takes unit p v)
    (o : Option String) : ∃ e, bindOne (.ok o) p (v.forms unit) = .error e ∧
      ((∃ fault, e = .codeFormat fault o) ∨ Spoils unit e p v) := by
  by_cases hp : p = .string
  · subst hp
    have hv : v ≠ .null := by
      rintro rfl
      exact h ⟨rfl, fun _ => ⟨_, rfl⟩⟩
    rw [bindOne_string _ hv]
    cases ht : v.text unit with
    | ok s => exact absurd ⟨rfl, fun _ => ⟨s, ht⟩⟩ h
    | error e => exact ⟨e, rfl, .inr ht⟩
  · rw [takes_iff_admits hp, Bool.not_eq_true] at h
    cases p with
    | literal => cases h
    | string => exact absurd rfl hp
    | name =>
        have hn : v.name? = none := by simpa [Placeholder.admits] using h
        simp only [bindOne, Value.value_forms, hn]
        exact faulty_of_not_admits hp h _ o
    | type =>
        simp only [bindOne, Value.value_forms]
        split
        · cases h
        · exact faulty_of_not_admits hp h _ o

theorem bindOne_eq_ok_iff {o : Option String} {p : Placeholder} {v u : Value} :
    bindOne (.ok o) p (v.forms unit) = .ok u ↔ Takes unit p v ∧ u = bound unit p v := by
  by_cases h : Takes unit p v
  · rw [bindOne_of_takes h]
    simp [h, eq_comm]
  · obtain ⟨e, he, _⟩ := bindOne_of_not_takes h o
    simp [he, h]

theorem binds_iff {ps : List Placeholder} {args us : List Value} :
    Binds ps (args.map (·.forms unit)) us ↔
      List.Forall₂ (Takes unit) ps args ∧ us = List.zipWith (bound unit) ps args := by
  induction ps generalizing args us with
  | nil =>
      constructor
      · intro h
        cases args with
        | nil => cases h; exact ⟨.nil, rfl⟩
        | cons v args => cases h
      · rintro ⟨h, rfl⟩
        cases h
        exact .nil
  | cons p ps ih =>
      constructor
      · intro h
        cases args with
        | nil => cases h
        | cons v args =>
            cases h with
            | cons hv hs =>
                obtain ⟨ht, rfl⟩ := bindOne_eq_ok_iff.1 (hv (.ok none))
                obtain ⟨hts, rfl⟩ := ih.1 hs
                exact ⟨.cons ht hts, rfl⟩
      · rintro ⟨h, rfl⟩
        cases h with
        | cons ht hts => exact .cons (bindOne_of_takes ht) (ih.2 ⟨hts, rfl⟩)

/-- The placeholder `p` is reached and finds the argument `v`: all in front of it could be read,
and every argument before `v` was taken. -/
inductive Meets (unit : IndentUnit) (p : Placeholder) (v : Value) : List Char → List Value → Prop
  | here {l : Char} {cs : List Char} {vs : List Value} (hl : (l, p) ∈ argumentLetters) :
    Meets unit p v ('%' :: l :: cs) (v :: vs)
  | char {c : Char} {cs : List Char} {vs : List Value} (hc : c ≠ '%') (h : Meets unit p v cs vs) :
    Meets unit p v (c :: cs) vs
  | plain {l : Char} {cs : List Char} {vs : List Value} (hl : l ∈ plainLetters)
    (h : Meets unit p v cs vs) : Meets unit p v ('%' :: l :: cs) vs
  | argument {l : Char} {q : Placeholder} {u : Value} {cs : List Char} {vs : List Value}
    (hl : (l, q) ∈ argumentLetters) (hu : Takes unit q u) (h : Meets unit p v cs vs) :
    Meets unit p v ('%' :: l :: cs) (u :: vs)

theorem bind_part {p : Part} (hp : p.placeholder? = none) (format : Except Error (Option String))
    (index : Nat) (steps : List Step) (args : List Forms) :
    bind format index (.part p :: steps) args =
      (bind format index steps args).map (⟨[p], []⟩ ++ ·) := by
  cases p with
  | argument q => cases hp
  | _ => rfl

theorem bind_argument {q : Placeholder} {v : Value} (h : Takes unit q v)
    (format : Except Error (Option String)) (index : Nat) (steps : List Step) (args : List Forms) :
    bind format index (.part (.argument q) :: steps) (v.forms unit :: args) =
      (bind format (index + 1) steps args).map (⟨[.argument q], [bound unit q v]⟩ ++ ·) := by
  simp only [bind, take, bindOne_of_takes h]
  rfl

theorem bind_consChar (c : Char) {format : Except Error (Option String)} {index : Nat}
    {steps : List Step} {args : List Forms} {e : Error}
    (h : bind format index (consChar c steps) args = .error e) :
    bind format index steps args = .error e := by
  unfold consChar at h
  split at h
  · rw [bind_part rfl] at h ⊢
    rw [error_of_map h]
    rfl
  · rw [bind_part rfl] at h
    exact error_of_map h

theorem bind_error {cs : List Char} {args : List Value} {o : Option String} {index : Nat}
    {e : Error} (h : bind (.ok o) index (scan cs) (args.map (·.forms unit)) = .error e) :
    (∃ fault, e = .codeFormat fault o) ∨ ∃ p v, Meets unit p v cs args ∧ Spoils unit e p v := by
  fun_induction scan cs generalizing args index with
  | case1 =>
      rw [bind] at h
      split at h
      · cases h
      · exact .inl ⟨_, (Except.error.inj h).symm⟩
  | case2 | case3 => exact .inl ⟨_, (Except.error.inj h).symm⟩
  | case4 l rest p hp ih =>
      rcases ofLetter_cases hp with ⟨hl, hn⟩ | ⟨q, hl, rfl⟩
      · rw [bind_part hn] at h
        rcases ih (error_of_map h) with hfault | ⟨p, v, hm, hs⟩
        · exact .inl hfault
        · exact .inr ⟨p, v, .plain hl hm, hs⟩
      · cases args with
        | nil => exact .inl ⟨_, (Except.error.inj h).symm⟩
        | cons u args =>
            by_cases ht : Takes unit q u
            · rw [List.map_cons, bind_argument ht] at h
              rcases ih (error_of_map h) with hfault | ⟨p, v, hm, hs⟩
              · exact .inl hfault
              · exact .inr ⟨p, v, .argument hl ht hm, hs⟩
            · obtain ⟨e', he, hwhy⟩ := bindOne_of_not_takes ht o
              simp only [List.map_cons, bind, take, he] at h
              cases h
              exact hwhy.imp_right fun hs => ⟨q, u, .here hl, hs⟩
  | case5 c rest hc ih =>
      rcases ih (bind_consChar c h) with hfault | ⟨p, v, hm, hs⟩
      · exact .inl hfault
      · exact .inr ⟨p, v, .char hc hm, hs⟩

theorem listed_str (unit : IndentUnit) (f : String) :
    ∃ o, listed ((Value.str f).forms unit) = .ok o := by
  unfold listed
  split
  · exact ⟨_, rfl⟩
  · exact ⟨_, rfl⟩

theorem parse_eq_ok_iff {f : String} {args : List Value} {c : CodeBlock} :
    parse unit (.str f) args = .ok c ↔ Scans f.toList c.parts ∧
      List.Forall₂ (Takes unit) (placeholders c.parts) args ∧
      c.args = List.zipWith (bound unit) (placeholders c.parts) args := by
  have h : parse unit (.str f) args = .ok c ↔ _ := CodeBlock.ofFormat_eq_ok_iff
  rw [h, binds_iff]
  exact and_congr_left' ⟨scans_of_scan, Scans.scan_eq⟩

/-- Reading succeeds on the formats that are made of text and placeholders, one for each argument
and each given what it takes. It fails by a fault of the format or of an argument that is met. What
is read spells the format, is cut into placeholders and longest runs of text, and has each argument
in the form that its placeholder asks for. -/
theorem parse_language (unit : IndentUnit) (f : String) (args : List Value) :
    ((∃ c, parse unit (.str f) args = .ok c) ↔
      ∃ ps, Composed f.toList ps ∧ List.Forall₂ (Takes unit) ps args) ∧
    (∀ e, parse unit (.str f) args = .error e →
      (∃ fault format, e = .codeFormat fault format) ∨
        ∃ p v, Meets unit p v f.toList args ∧ Spoils unit e p v) ∧
    ∀ c, parse unit (.str f) args = .ok c →
      String.join (c.parts.map Part.spelling) = f ∧ Part.Cut c.parts ∧
        List.Forall₂ (Takes unit) (placeholders c.parts) args ∧
        c.args = List.zipWith (bound unit) (placeholders c.parts) args := by
  refine ⟨⟨?_, ?_⟩, ?_, ?_⟩
  · rintro ⟨c, hc⟩
    obtain ⟨hs, ht, _⟩ := parse_eq_ok_iff.1 hc
    exact ⟨_, hs.composed, ht⟩
  · rintro ⟨qs, hq, ht⟩
    obtain ⟨ps, hs, rfl⟩ := hq.scans
    let c : CodeBlock := ⟨ps, List.zipWith (bound unit) (placeholders ps) args⟩
    exact ⟨c, parse_eq_ok_iff.2 ⟨hs, ht, rfl⟩⟩
  · intro e he
    obtain ⟨o, ho⟩ := listed_str unit f
    have hb : bind (listed ((Value.str f).forms unit)) 0 (scan f.toList)
        (Value.formsAll unit args) = .error e := he
    rw [ho, Value.formsAll_eq] at hb
    exact (bind_error hb).imp_left fun ⟨fault, hf⟩ => ⟨fault, o, hf⟩
  · intro c hc
    obtain ⟨hs, ht, hargs⟩ := parse_eq_ok_iff.1 hc
    refine ⟨String.toList_inj.1 ?_, hs.cut, ht, hargs⟩
    rw [String.toList_join, List.flatMap_map, hs.spelling]

/-- Percent signs in a row, and a name that is given as a parameter. -/
theorem parse_language_percents :
    let unit : IndentUnit := .ok "  "
    let x : Value := .decl none (.parameter ⟨"x", .null, [], .empty, none⟩)
    let c : CodeBlock :=
      ⟨[.text "a", .percent, .argument .literal, .text " = ", .argument .name], [.int 1, .str "x"]⟩
    parse unit (.str "a%%%L = %N") [.int 1, x] = .ok c ∧
      String.join (c.parts.map Part.spelling) = "a%%%L = %N" ∧ Part.Cut c.parts ∧
      List.Forall₂ (Takes unit) (placeholders c.parts) [.int 1, x] ∧
      c.args = List.zipWith (bound unit) (placeholders c.parts) [.int 1, x] := by
  intro unit x c
  have hc : parse unit (.str "a%%%L = %N") [.int 1, x] = .ok c := rfl
  exact ⟨hc, (parse_language unit _ _).2.2 c hc⟩

/-- A block that cannot be written has no text: the format is composed as it should be and its
argument is of any sort, but reading fails. -/
theorem parse_string_unwritable :
    let unit : IndentUnit := .ok "  "
    let code : Value := .code ⟨[.unindent], []⟩
    parse unit (.str "%S") [code] = .error (.codeFormat (.unindent "1" 0) none) ∧
      ¬((∃ c, parse unit (.str "%S") [code] = .ok c) ↔
        ∃ ps, Composed "%S".toList ps ∧
          List.Forall₂ (fun p v => p.admits v = true) ps [code]) := by
  intro unit code
  have herror : parse unit (.str "%S") [code] = .error (.codeFormat (.unindent "1" 0) none) := rfl
  refine ⟨herror, fun h => ?_⟩
  have hcomposed : Composed ['%', 'S'] [.string] := .argument (by simp [argumentLetters]) .nil
  obtain ⟨c, hc⟩ := h.2 ⟨[.string], hcomposed, .cons rfl .nil⟩
  rw [herror] at hc
  cases hc

end Format

end KotlinDecl
