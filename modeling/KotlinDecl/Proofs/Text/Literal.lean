import KotlinDecl.Proofs.CodeBlock.Language
import KotlinDecl.Proofs.Layout.Laws

namespace KotlinDecl

namespace Text

def shortEscaped? : Char → Option Char
  | '\\' => some '\\'
  | '\x22' => some '\x22'
  | 'n' => some '\n'
  | 'r' => some '\r'
  | 't' => some '\t'
  | 'b' => some '\x08'
  | '$' => some '$'
  | _ => none

def hexValue? (c : Char) : Option Nat :=
  if '0' ≤ c ∧ c ≤ '9' then some (c.toNat - '0'.toNat)
  else if 'a' ≤ c ∧ c ≤ 'f' then some (c.toNat - 'a'.toNat + 10)
  else if 'A' ≤ c ∧ c ≤ 'F' then some (c.toNat - 'A'.toNat + 10)
  else none

def hexChar? (digits : List Char) : Option Char := do
  let n := (← digits.mapM hexValue?).foldl (16 * · + ·) 0
  if n.isValidChar then some (Char.ofNat n) else none

/-- Reads what follows the opening quote. The closing quote has to be the last character. -/
def readInside : List Char → Option (List Char)
  | '\\' :: 'u' :: a :: b :: c :: d :: rest =>
    (hexChar? [a, b, c, d]).bind fun x => (readInside rest).map (x :: ·)
  | '\\' :: e :: rest => (shortEscaped? e).bind fun c => (readInside rest).map (c :: ·)
  | ['\x22'] => some []
  | c :: rest => if c = '\x22' then none else (readInside rest).map (c :: ·)
  | [] => none

def readLiteral (s : String) : Option String :=
  match s.toList with
  | '\x22' :: rest => (readInside rest).map String.ofList
  | _ => none

/-- The characters of a text that no backslash takes. -/
def unescaped : List Char → List Char
  | '\\' :: _ :: rest => unescaped rest
  | c :: rest => c :: unescaped rest
  | [] => []

def isPlain (c : Char) : Bool := c ≠ '\\' && c ≠ '\x22' && c ≠ '$' && 0x20 ≤ c.toNat

/-- The ways in which a character can stand in a literal. -/
inductive StandsFor : Char → List Char → Prop
  | plain {c : Char} (h : isPlain c = true) : StandsFor c [c]
  | short {c e : Char} (h : shortEscaped? e = some c) : StandsFor c ['\\', e]
  | coded {c x y z t : Char} (h : hexChar? [x, y, z, t] = some c)
    (hplain : [x, y, z, t].all isPlain = true) : StandsFor c ['\\', 'u', x, y, z, t]

theorem shortEscaped_of_shortEscape {c : Char} {s : String} (h : shortEscape? c = some s) :
    ∃ e, s.toList = ['\\', e] ∧ shortEscaped? e = some c := by
  unfold shortEscape? at h
  split at h <;> cases h <;> exact ⟨_, rfl, rfl⟩

theorem hexDigits_control : ∀ n < 0x20,
    let digits := ['0', '0', (n / 16).digitChar, (n % 16).digitChar]
    (hexDigits 4 n).toList = digits ∧ hexChar? digits = some (Char.ofNat n) ∧
      digits.all isPlain = true := by
  decide +kernel

theorem isPlain_of_shortEscape {c : Char} (h : shortEscape? c = none) (hc : 0x20 ≤ c.toNat) :
    isPlain c = true := by
  have hne (d : Char) (hd : shortEscape? d ≠ none) : c ≠ d := by
    rintro rfl
    exact hd h
  simp [isPlain, hne '\\' nofun, hne '\x22' nofun, hne '$' nofun, hc]

theorem standsFor_escapeChar (c : Char) : StandsFor c (escapeChar c).toList := by
  unfold escapeChar
  split
  · next s h =>
      obtain ⟨e, hs, he⟩ := shortEscaped_of_shortEscape h
      rw [hs]
      exact .short he
  · next h =>
      split
      · next hc =>
          obtain ⟨hdigits, hchar, hplain⟩ := hexDigits_control c.toNat hc
          rw [Char.ofNat_toNat] at hchar
          rw [String.toList_append, hdigits]
          exact .coded hchar hplain
      · next hc =>
          have hone : c.toString.toList = [c] := by simp
          rw [hone]
          exact .plain (isPlain_of_shortEscape h (Nat.le_of_not_lt hc))

namespace StandsFor

variable {c : Char} {cs : List Char}

theorem readInside_append (h : StandsFor c cs) (rest : List Char) :
    readInside (cs ++ rest) = (readInside rest).map (c :: ·) := by
  cases h with
  | plain h =>
      have hb : c ≠ '\\' := by
        rintro rfl
        cases h
      have hq : c ≠ '\x22' := by
        rintro rfl
        cases h
      rw [List.singleton_append, readInside, if_neg hq] <;> simp [hb, hq]
  | @short e h =>
      have hu : e ≠ 'u' := by
        rintro rfl
        cases h
      rw [List.cons_append, List.singleton_append, readInside, h, Option.bind_some]
      simp [hu]
  | coded h =>
      simp only [List.cons_append, List.nil_append]
      rw [readInside, h, Option.bind_some]

theorem unescaped_plain {ds : List Char} (h : ds.all isPlain = true) (rest : List Char) :
    unescaped (ds ++ rest) = ds ++ unescaped rest := by
  induction ds with
  | nil => rfl
  | cons d ds ih =>
      obtain ⟨hd, hds⟩ := Bool.and_eq_true_iff.1 h
      have hb : d ≠ '\\' := by
        rintro rfl
        cases hd
      rw [List.cons_append, unescaped, ih hds]
      · rfl
      · simp [hb]

/-- Of an escape only digits are left, which mean nothing. -/
theorem unescaped_append (h : StandsFor c cs) (rest : List Char) :
    ∃ ds, unescaped (cs ++ rest) = ds ++ unescaped rest ∧ ds.all isPlain = true := by
  cases h with
  | plain h =>
      have hall : [c].all isPlain = true := by simp [h]
      exact ⟨[c], unescaped_plain hall rest, hall⟩
  | short => exact ⟨[], rfl, rfl⟩
  | @coded x y z t _ hplain => exact ⟨[x, y, z, t], unescaped_plain hplain rest, hplain⟩

theorem le_of_mem (h : StandsFor c cs) : ∀ d ∈ cs, 0x20 ≤ d.toNat := by
  have hall {ds : List Char} (h : ds.all isPlain = true) : ∀ d ∈ ds, 0x20 ≤ d.toNat := by
    intro d hd
    have hplain := List.all_eq_true.1 h d hd
    simp only [isPlain, Bool.and_eq_true, decide_eq_true_eq] at hplain
    exact hplain.2
  cases h with
  | plain h => exact hall (by simp [h])
  | @short e h =>
      have hsecond : 0x20 ≤ e.toNat := by
        unfold shortEscaped? at h
        split at h <;> cases h <;> decide
      exact List.forall_mem_cons.2 ⟨by decide, List.forall_mem_singleton.2 hsecond⟩
  | coded _ hplain =>
      exact List.forall_mem_cons.2 ⟨by decide, List.forall_mem_cons.2 ⟨by decide, hall hplain⟩⟩

end StandsFor

def escapedInside (cs : List Char) : List Char := cs.flatMap fun c => (escapeChar c).toList

theorem toList_stringLiteral (s : String) :
    (stringLiteral (some s)).toList = '\x22' :: (escapedInside s.toList ++ ['\x22']) := by
  simp [stringLiteral, escapedInside, String.toList_join, List.flatMap_map]

theorem readInside_escapedInside (cs : List Char) :
    readInside (escapedInside cs ++ ['\x22']) = some cs := by
  induction cs with
  | nil => rfl
  | cons c cs ih =>
      have hread := (standsFor_escapeChar c).readInside_append (escapedInside cs ++ ['\x22'])
      rw [escapedInside, List.flatMap_cons, List.append_assoc]
      exact hread.trans (congrArg _ ih)

theorem unescaped_escapedInside (cs rest : List Char) :
    ∃ ds, unescaped (escapedInside cs ++ rest) = ds ++ unescaped rest ∧ ds.all isPlain = true := by
  induction cs with
  | nil => exact ⟨[], rfl, rfl⟩
  | cons c cs ih =>
      obtain ⟨es, hes, hplain⟩ := ih
      obtain ⟨ds, hds, hplain'⟩ :=
        (standsFor_escapeChar c).unescaped_append (escapedInside cs ++ rest)
      refine ⟨ds ++ es, ?_, by simp [hplain, hplain']⟩
      rw [escapedInside, List.flatMap_cons, List.append_assoc, List.append_assoc, ← hes]
      exact hds

theorem le_of_mem_stringLiteral (o : Option String) :
    ∀ c ∈ (stringLiteral o).toList, 0x20 ≤ c.toNat := by
  cases o with
  | none =>
      intro c hc
      exact of_decide_eq_true
        (List.all_eq_true.1 (show "null".toList.all (0x20 ≤ ·.toNat) = true from by decide) c hc)
  | some s =>
      rw [toList_stringLiteral]
      refine List.forall_mem_cons.2 ⟨by decide, List.forall_mem_append.2
        ⟨fun c hc => ?_, List.forall_mem_singleton.2 (by decide)⟩⟩
      obtain ⟨d, _, hd⟩ := List.mem_flatMap.1 hc
      exact (standsFor_escapeChar d).le_of_mem c hd

theorem not_mem_stringLiteral (o : Option String) {c : Char} (hc : c.toNat < 0x20) :
    c ∉ (stringLiteral o).toList :=
  fun hm => Nat.not_le_of_lt hc (le_of_mem_stringLiteral o c hm)

theorem readLiteral_stringLiteral (s : String) :
    readLiteral (stringLiteral (some s)) = some s := by
  rw [readLiteral, toList_stringLiteral]
  show Option.map _ (readInside (escapedInside s.toList ++ ['\x22'])) = _
  rw [readInside_escapedInside, Option.map_some, String.ofList_toList]

theorem unescaped_stringLiteral (s : String) :
    ∃ inside, unescaped (stringLiteral (some s)).toList = '\x22' :: (inside ++ ['\x22']) ∧
      inside.all isPlain = true := by
  obtain ⟨ds, hds, hplain⟩ := unescaped_escapedInside s.toList ['\x22']
  refine ⟨ds, ?_, hplain⟩
  rw [toList_stringLiteral]
  exact congrArg _ hds

theorem stringLiteral_ne_none (s : String) : stringLiteral (some s) ≠ stringLiteral none := by
  intro h
  have hlist := congrArg String.toList h
  rw [toList_stringLiteral] at hlist
  cases hlist

theorem stringLiteral_injective : Function.Injective stringLiteral := by
  intro o o' h
  cases o with
  | none =>
      cases o' with
      | none => rfl
      | some t => exact absurd h.symm (stringLiteral_ne_none t)
  | some s =>
      cases o' with
      | none => exact absurd h (stringLiteral_ne_none s)
      | some t =>
          rw [← readLiteral_stringLiteral s, h, readLiteral_stringLiteral]

end Text

open Text

theorem Layout.run_stringLiteral (o : Option String) (w : Writer) :
    (text (stringLiteral o)).run w =
      ⟨w.margin ++ (stringLiteral o).toList, { w with lineStart := false }, none⟩ := by
  have hbreak : '\n' ∉ (stringLiteral o).toList := not_mem_stringLiteral o (by decide)
  obtain ⟨c, cs, hcs⟩ : ∃ c cs, (stringLiteral o).toList = c :: cs := by
    cases o with
    | none => exact ⟨_, _, rfl⟩
    | some s => exact ⟨_, _, toList_stringLiteral s⟩
  rw [hcs] at hbreak ⊢
  exact run_line hcs hbreak w

namespace Text

/-- A literal can be read back, has no quote, template or line break of its own in it, and is the
literal of no other text nor of the absence of one. A string placeholder takes the text of whatever
it is given, and in any code the literal of that is written as it is. -/
theorem stringLiteral_exact :
    (∀ s : String,
      readLiteral (stringLiteral (some s)) = some s ∧
      '\n' ∉ (stringLiteral (some s)).toList ∧ '\r' ∉ (stringLiteral (some s)).toList ∧
      (∃ inside, unescaped (stringLiteral (some s)).toList = '\x22' :: (inside ++ ['\x22']) ∧
        '\x22' ∉ inside ∧ '$' ∉ inside) ∧
      stringLiteral (some s) ≠ stringLiteral none) ∧
    Function.Injective stringLiteral ∧
    (∀ (unit : IndentUnit) (format : Except Error (Option String)) (v : Value),
      Format.bindOne format .string (v.forms unit) =
        if v.isNull then .ok .null else (v.text unit).map .str) ∧
    ∀ (unit : IndentUnit) (o : Option String) (parts : List Part)
      (args : List (Placeholder → Layout)) (w : Writer),
      (Layout.code (.argument .string :: parts)
        (((o.elim .null .str : Value).forms unit).argument :: args)).run w =
      (⟨w.margin ++ (stringLiteral o).toList, { w with lineStart := false }, none⟩ :
        Written).andThen (Layout.code parts args).run := by
  refine ⟨fun s => ?_, stringLiteral_injective, fun unit format v => ?_,
    fun unit o parts args w => ?_⟩
  · obtain ⟨inside, hinside, hplain⟩ := unescaped_stringLiteral s
    have hnot {c : Char} (hc : isPlain c = false) : c ∉ inside := by
      intro hm
      have hp := List.all_eq_true.1 hplain c hm
      rw [hc] at hp
      cases hp
    exact ⟨readLiteral_stringLiteral s, not_mem_stringLiteral _ (by decide),
      not_mem_stringLiteral _ (by decide), ⟨inside, hinside, hnot rfl, hnot rfl⟩,
      stringLiteral_ne_none s⟩
  · cases v with
    | null => rfl
    | _ => exact Format.bindOne_string format (by simp)
  · have hform : ((o.elim .null .str : Value).forms unit).argument .string =
        .text (stringLiteral o) := by
      cases o <;> rfl
    show (_ ++ Layout.code parts args).run w = _
    rw [Layout.run_append, hform, Layout.run_stringLiteral]

/-- Escapes that only look like others, and a template that is none. -/
example : readLiteral (stringLiteral (some "\\u0041\\\"$\n\x01")) = some "\\u0041\\\"$\n\x01" := by
  decide +kernel

end Text

end KotlinDecl
