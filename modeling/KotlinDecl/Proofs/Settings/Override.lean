import KotlinDecl.Proofs.Results
import KotlinDecl.Settings.Session
import Mathlib.Data.List.Induction
import Mathlib.Data.Nat.Digits.Defs

namespace KotlinDecl

namespace Text

variable {cs : List Char} {n : Nat}

/-- Decimal digits of any script, at least one, that write a number, the most significant first. -/
def Writes (cs : List Char) (n : Nat) : Prop :=
  cs ≠ [] ∧ ∃ ds : List Nat, cs.map decimalValue? = ds.map some ∧ n = Nat.ofDigits 10 ds.reverse

theorem decimalNumber?_append (cs : List Char) (c : Char) :
    decimalNumber? (cs ++ [c]) =
      (decimalNumber? cs).bind fun n => (decimalValue? c).map (10 * n + ·) := by
  rw [decimalNumber?, List.foldl_append]
  show Option.bind _ _ = _
  congr 1
  funext n
  exact Option.map_eq_bind.symm

theorem decimalNumber?_eq_some_iff :
    decimalNumber? cs = some n ↔
      ∃ ds : List Nat, cs.map decimalValue? = ds.map some ∧ n = Nat.ofDigits 10 ds.reverse := by
  induction cs using List.reverseRecOn generalizing n with
  | nil =>
      constructor
      · intro h
        cases h
        exact ⟨[], rfl, rfl⟩
      · rintro ⟨ds, hds, rfl⟩
        obtain rfl := List.map_eq_nil_iff.1 hds.symm
        rfl
  | append_singleton cs c ih =>
      have hlast (ds : List Nat) (v : Nat) :
          Nat.ofDigits 10 (ds ++ [v]).reverse = 10 * Nat.ofDigits 10 ds.reverse + v := by
        rw [List.reverse_append, List.reverse_singleton, List.singleton_append, Nat.ofDigits_cons,
          Nat.add_comm]
      rw [decimalNumber?_append, Option.bind_eq_some_iff, List.map_append]
      constructor
      · rintro ⟨k, hk, hn⟩
        obtain ⟨ds, hds, rfl⟩ := ih.1 hk
        obtain ⟨v, hv, rfl⟩ := Option.map_eq_some_iff.1 hn
        refine ⟨ds ++ [v], ?_, (hlast ds v).symm⟩
        rw [List.map_append, hds, List.map_singleton, hv]
        rfl
      · rintro ⟨all, hall, rfl⟩
        obtain ⟨ds, vs, rfl, hds, hvs⟩ := List.append_eq_map_iff.1 hall
        obtain ⟨v, rfl, hv⟩ := List.map_eq_singleton_iff.1 hvs
        refine ⟨_, ih.2 ⟨ds, hds.symm, rfl⟩, ?_⟩
        rw [← hv, Option.map_some, hlast]

theorem writes_iff : Writes cs n ↔ cs ≠ [] ∧ decimalNumber? cs = some n := by
  rw [Writes, decimalNumber?_eq_some_iff]

theorem exists_writes_iff : (∃ n, Writes cs n) ↔ cs ≠ [] ∧ ∀ c ∈ cs, decimalValue? c ≠ none := by
  constructor
  · rintro ⟨n, hne, ds, hds, _⟩
    refine ⟨hne, fun c hc hnone => ?_⟩
    have hmem : none ∈ ds.map some := hds ▸ List.mem_map.2 ⟨c, hc, hnone⟩
    obtain ⟨d, _, hd⟩ := List.mem_map.1 hmem
    cases hd
  · rintro ⟨hne, hall⟩
    have hds : ∃ ds : List Nat, cs.map decimalValue? = ds.map some := by
      clear hne
      induction cs with
      | nil => exact ⟨[], rfl⟩
      | cons c cs ih =>
          obtain ⟨hc, hcs⟩ := List.forall_mem_cons.1 hall
          obtain ⟨d, hd⟩ := Option.ne_none_iff_exists'.1 hc
          obtain ⟨ds, hds⟩ := ih hcs
          exact ⟨d :: ds, by rw [List.map_cons, List.map_cons, hd, hds]⟩
    obtain ⟨ds, hds⟩ := hds
    exact ⟨_, hne, ds, hds, rfl⟩

theorem not_writes (h : decimalNumber? cs = none) : ¬∃ n, Writes cs n := by
  rintro ⟨n, hn⟩
  cases h.symm.trans (writes_iff.1 hn).2

theorem isDigit_of_writes (h : Writes cs n) : ∀ c ∈ cs, isDigit c = true := by
  intro c hc
  have hdecimal := (exists_writes_iff.1 ⟨n, h⟩).2 c hc
  rw [isDigit, Option.isSome_iff_ne_none.2 hdecimal]
  rfl

theorem decimalValue?_digitChar {d : Nat} (h : d < 10) :
    decimalValue? (Nat.digitChar d) = some d := by
  have hall : ∀ d : Fin 10, decimalValue? (Nat.digitChar d) = some d.val := by decide
  exact hall ⟨d, h⟩

theorem decimalNumber?_toDigits (n : Nat) : decimalNumber? (Nat.toDigits 10 n) = some n := by
  induction n using Nat.strongRecOn with
  | ind n ih =>
      rw [Nat.toDigits_eq_if (by decide)]
      split
      · next hn =>
          rw [← List.nil_append [n.digitChar], decimalNumber?_append, decimalValue?_digitChar hn]
          exact congrArg some (Nat.zero_add n)
      · next hn =>
          have hlt : n / 10 < n := Nat.div_lt_self (by omega) (by decide)
          rw [decimalNumber?_append, ih _ hlt, decimalValue?_digitChar (Nat.mod_lt n (by decide))]
          exact congrArg some (Nat.div_add_mod n 10)

theorem writes_toString (n : Nat) : Writes (toString n).toList n := by
  have hdigits : (toString n).toList = Nat.toDigits 10 n := Nat.toList_repr
  rw [hdigits, writes_iff]
  exact ⟨Nat.toDigits_ne_nil, decimalNumber?_toDigits n⟩

end Text

namespace Datum

def entries? : Datum → Option (List (String × Datum))
  | map entries => some entries
  | _ => none

def int? : Datum → Option Int
  | int n => some n
  | _ => none

theorem eq_map_of_entries? {d : Datum} {entries : List (String × Datum)}
    (h : d.entries? = some entries) : d = .map entries := by
  cases d with
  | map es => exact congrArg map (Option.some.inj h)
  | _ => cases h

theorem eq_int_of_int? {d : Datum} {n : Int} (h : d.int? = some n) : d = .int n := by
  cases d with
  | int m => exact congrArg int (Option.some.inj h)
  | _ => cases h

end Datum

namespace Settings

open Text

variable {codecs : Codecs} {d : Directory} {file override : String} {asked : Option String}
  {size : Int}

/-- The size that a file says, read by the codec of its format. It is the usual one if the file says
none or is missing. There is no size if the file holds no mapping, or something else than a whole
number for the size. -/
def saidSize? (codecs : Codecs) (d : Directory) (file : String) : Option Int :=
  match d.read? file with
  | none => some 2
  | some text => do
    let entries ← (← ((codecs.forFile file).read text).toOption).entries?
    let render ← ((Datum.get? "render" entries).getD (.map [])).entries?
    ((Datum.get? "indent_size" render).getD (.int 2)).int?

theorem readData_of_map {text : String} {entries : List (String × Datum)}
    (h : d.read? file = some text) (hread : (codecs.forFile file).read text = .ok (.map entries)) :
    readData codecs d file = .ok (.map entries) := by
  rw [readData, h]
  show (codecs.forFile file).read text >>= _ = _
  rw [hread]
  cases entries <;> rfl

theorem sizeIn_map {entries render : List (String × Datum)}
    (h : (Datum.get? "render" entries).getD (.map []) = .map render) :
    sizeIn (.map entries) = .ok ((Datum.get? "indent_size" render).getD defaultIndentSize) := by
  show entriesOf ((Datum.get? "render" entries).getD (.map [])) >>= _ = _
  rw [h]
  rfl

theorem sizeIn_of_said (h : saidSize? codecs d file = some size) :
    ∃ data, readData codecs d file = .ok data ∧ sizeIn data = .ok (.int size) := by
  unfold saidSize? at h
  split at h
  · next hmissing =>
      cases h
      exact ⟨.map [], by rw [readData, hmissing], rfl⟩
  · next text htext =>
      obtain ⟨data, hread, h⟩ := Option.bind_eq_some_iff.1 h
      obtain ⟨entries, hentries, h⟩ := Option.bind_eq_some_iff.1 h
      obtain ⟨render, hrender, hsize⟩ := Option.bind_eq_some_iff.1 h
      obtain rfl := Datum.eq_map_of_entries? hentries
      refine ⟨_, readData_of_map htext (ok_of_toOption hread), ?_⟩
      rw [sizeIn_map (Datum.eq_map_of_entries? hrender), defaultIndentSize,
        Datum.eq_int_of_int? hsize]

/-- Digits that are taken for a numeral and cannot be read as one. -/
structure Unreadable (cs : List Char) : Prop where
  digits : ∀ c ∈ cs, isDigit c = true
  fault : ∃ c ∈ cs, decimalValue? c = none

theorem sizeFrom_of_digits (hne : override.toList ≠ [])
    (hdigits : ∀ c ∈ override.toList, isDigit c = true) :
    sizeFrom override = (decimalNumber? override.toList).elim (.error .notNumeral)
      fun n => .ok (some (.int n)) := by
  have htaken : ¬(override.toList.isEmpty || !override.toList.all isDigit) = true := by
    simp only [Bool.or_eq_true, List.isEmpty_iff, Bool.not_eq_true', not_or]
    exact ⟨hne, by rw [List.all_eq_true.2 hdigits]; decide⟩
  rw [sizeFrom, if_neg htaken]
  cases decimalNumber? override.toList <;> rfl

theorem sizeFrom_of_unreadable (h : Unreadable override.toList) :
    sizeFrom override = .error .notNumeral := by
  obtain ⟨c, hc, hnone⟩ := h.fault
  have hne : override.toList ≠ [] := List.ne_nil_of_mem hc
  rw [sizeFrom_of_digits hne h.digits]
  cases hn : decimalNumber? override.toList with
  | none => rfl
  | some n =>
      have hwrites : Writes override.toList n := writes_iff.2 ⟨hne, hn⟩
      exact absurd hnone ((exists_writes_iff.1 ⟨n, hwrites⟩).2 c hc)

theorem sizeFrom_of_writes {n : Nat} (h : Writes override.toList n) :
    sizeFrom override = .ok (some (.int n)) := by
  obtain ⟨hne, hn⟩ := writes_iff.1 h
  rw [sizeFrom_of_digits hne (isDigit_of_writes h), hn]
  rfl

theorem sizeFrom_of_silent (h : ¬∃ n, Writes override.toList n)
    (hu : ¬Unreadable override.toList) : sizeFrom override = .ok none := by
  refine if_pos ?_
  by_contra hnot
  simp only [Bool.or_eq_true, List.isEmpty_iff, Bool.not_eq_true', not_or, Bool.not_eq_false,
    List.all_eq_true] at hnot
  refine hu ⟨hnot.2, ?_⟩
  by_contra hall
  push Not at hall
  exact h (exists_writes_iff.2 ⟨hnot.1, hall⟩)

theorem load_eq (h : saidSize? codecs d (fileFor d asked) = some size) :
    load codecs d override asked =
      (sizeFrom override).map fun o => ⟨fileFor d asked, o.getD (.int size)⟩ := by
  obtain ⟨data, hdata, hsize⟩ := sizeIn_of_said h
  rw [load, hdata]
  show ofData _ _ _ = _
  rw [ofData, hsize]
  cases sizeFrom override <;> rfl

def IsDue (override : String) (said result : Int) : Prop :=
  (∃ n : Nat, Writes override.toList n ∧ result = n) ∨
    (¬∃ n, Writes override.toList n) ∧ result = said

/-- Whatever reads the files, settings are loaded with the size that is due exactly if the override
is not made of digits that cannot be read. With those they are not loaded at all. -/
theorem override_read_iff {codecs : Codecs} {d : Directory} {asked : Option String} {said : Int}
    (hsaid : saidSize? codecs d (fileFor d asked) = some said) (override : String) :
    ((∃ size, load codecs d override asked = .ok ⟨fileFor d asked, .int size⟩ ∧
        IsDue override said size) ↔ ¬Unreadable override.toList) ∧
      (Unreadable override.toList → load codecs d override asked = .error .notNumeral) ∧
      ∀ n : Nat, override = toString n →
        load codecs d override asked = .ok ⟨fileFor d asked, .int n⟩ := by
  have hwritten {n : Nat} (h : Writes override.toList n) :
      load codecs d override asked = .ok ⟨fileFor d asked, .int n⟩ := by
    rw [load_eq hsaid, sizeFrom_of_writes h]
    rfl
  have hfails (h : Unreadable override.toList) :
      load codecs d override asked = .error .notNumeral := by
    rw [load_eq hsaid, sizeFrom_of_unreadable h]
    rfl
  refine ⟨⟨?_, fun hu => ?_⟩, hfails, ?_⟩
  · rintro ⟨size, hload, _⟩ hu
    rw [hfails hu] at hload
    cases hload
  · by_cases hn : ∃ n, Writes override.toList n
    · obtain ⟨n, hn⟩ := hn
      exact ⟨n, hwritten hn, .inl ⟨n, hn, rfl⟩⟩
    · refine ⟨said, ?_, .inr ⟨hn, rfl⟩⟩
      rw [load_eq hsaid, sizeFrom_of_silent hn hu]
      rfl
  · rintro n rfl
    exact hwritten (writes_toString n)

/-- A file with a size of its own, an override that is no numeral, and one in digits of two
scripts. -/
theorem override_read_iff_scripts :
    let codecs := Codecs.simple
    let d : Directory := ⟨[("c.yml", "render:\n  indent_size: 4\n")]⟩
    saidSize? codecs d (fileFor d (some "c.yml")) = some 4 ∧
      (∃ size, load codecs d "wide" (some "c.yml") = .ok ⟨"c.yml", .int size⟩ ∧ size = 4) ∧
      ∃ size, load codecs d "٣2" (some "c.yml") = .ok ⟨"c.yml", .int size⟩ ∧ size = 32 := by
  intro codecs d
  have hsaid : saidSize? codecs d (fileFor d (some "c.yml")) = some 4 := by decide +kernel
  have hwide : ¬∃ n, Writes "wide".toList n := not_writes (by decide)
  have hmixed : decimalNumber? "٣2".toList = some 32 := by decide
  have hwrites : Writes "٣2".toList 32 := writes_iff.2 ⟨by decide, hmixed⟩
  have hletter : ¬Unreadable "wide".toList := fun h => absurd (h.digits 'w' (by decide)) (by decide)
  have hdecimal : ¬Unreadable "٣2".toList := by
    intro h
    obtain ⟨c, hc, hnone⟩ := h.fault
    exact (exists_writes_iff.1 ⟨32, hwrites⟩).2 c hc hnone
  refine ⟨hsaid, ?_, ?_⟩
  · obtain ⟨size, hload, hdue⟩ := (override_read_iff hsaid "wide").1.2 hletter
    obtain ⟨n, hn, _⟩ | ⟨_, hsize⟩ := hdue
    · exact absurd ⟨n, hn⟩ hwide
    · exact ⟨size, hload, hsize⟩
  · obtain ⟨size, hload, hdue⟩ := (override_read_iff hsaid "٣2").1.2 hdecimal
    obtain ⟨n, hn, hsize⟩ | ⟨hnone, _⟩ := hdue
    · obtain rfl : n = 32 := Option.some.inj ((writes_iff.1 hn).2.symm.trans hmixed)
      exact ⟨size, hload, hsize⟩
    · exact absurd ⟨32, hwrites⟩ hnone

/-- A raised two is a digit and no decimal one. -/
theorem override_superscript :
    let codecs := Codecs.simple
    saidSize? codecs {} (fileFor {} none) = some 2 ∧ (¬∃ n, Writes "²".toList n) ∧
      load codecs {} "²" none = .error .notNumeral :=
  ⟨rfl, not_writes (by decide), rfl⟩

end Settings

end KotlinDecl
