import KotlinDecl.Proofs.TypeName.Guessing
import KotlinDecl.Writer.Command

namespace KotlinDecl

namespace Name

def IsHead (c : Char) : Prop := ('A' ≤ c ∧ c ≤ 'Z') ∨ ('a' ≤ c ∧ c ≤ 'z') ∨ c = '_'

instance (c : Char) : Decidable (IsHead c) := inferInstanceAs (Decidable (_ ∨ _ ∨ _))

def IsTail (c : Char) : Prop := IsHead c ∨ ('0' ≤ c ∧ c ≤ '9')

instance (c : Char) : Decidable (IsTail c) := inferInstanceAs (Decidable (_ ∨ _))

inductive Declarable : List Char → Prop
  | plain {c : Char} {cs : List Char} (hc : IsHead c) (hcs : ∀ d ∈ cs, IsTail d)
      (hfree : String.ofList (c :: cs) ∉ reserved) : Declarable (c :: cs)
  | quoted {cs : List Char} (hne : cs ≠ []) (hcs : ∀ c ∈ cs, c ≠ '\x60' ∧ c ≠ '\r' ∧ c ≠ '\n') :
      Declarable ('\x60' :: (cs ++ ['\x60']))

theorem isLetter_iff {c : Char} : isLetter c = true ↔ IsHead c := by
  have hupper : c.isUpper = true ↔ 'A' ≤ c ∧ c ≤ 'Z' := decide_eq_true_iff
  have hlower : c.isLower = true ↔ 'a' ≤ c ∧ c ≤ 'z' :=
    Bool.and_eq_true_iff.trans (and_congr decide_eq_true_iff decide_eq_true_iff)
  have hsplit : isLetter c = (c.isUpper || c.isLower || decide (c = '_')) := rfl
  rw [hsplit, Bool.or_eq_true, Bool.or_eq_true, hupper, hlower, decide_eq_true_iff, or_assoc,
    IsHead]

theorem isLetterOrDigit_iff {c : Char} : isLetterOrDigit c = true ↔ IsTail c := by
  have hdigit : c.isDigit = true ↔ '0' ≤ c ∧ c ≤ '9' :=
    Bool.and_eq_true_iff.trans (and_congr decide_eq_true_iff decide_eq_true_iff)
  have hsplit : isLetterOrDigit c = (isLetter c || c.isDigit) := Bool.or_right_comm ..
  rw [hsplit, Bool.or_eq_true, isLetter_iff, hdigit, IsTail]

theorem isPlain_cons {c : Char} {cs : List Char} :
    isPlain (c :: cs) = true ↔ IsHead c ∧ ∀ d ∈ cs, IsTail d := by
  simp only [isPlain, Bool.and_eq_true, isLetter_iff, List.all_eq_true, isLetterOrDigit_iff]

theorem isQuotable_iff {c : Char} : isQuotable c = true ↔ c ≠ '\x60' ∧ c ≠ '\r' ∧ c ≠ '\n' := by
  simp [isQuotable, and_assoc]

theorem closesQuote_iff {cs : List Char} :
    closesQuote cs = true ↔
      ∃ body, body ≠ [] ∧ (∀ c ∈ body, c ≠ '\x60' ∧ c ≠ '\r' ∧ c ≠ '\n') ∧
        cs = body ++ ['\x60'] := by
  fun_induction closesQuote cs with
  | case1 => simp
  | case2 c =>
      refine iff_of_false Bool.false_ne_true ?_
      rintro ⟨body, hne, _, hc⟩
      have hlength := congrArg List.length hc
      simp [hne] at hlength
  | case3 c q =>
      simp only [Bool.and_eq_true, isQuotable_iff, decide_eq_true_eq]
      constructor
      · rintro ⟨hc, rfl⟩
        exact ⟨[c], List.cons_ne_nil c [], List.forall_mem_singleton.2 hc, rfl⟩
      · rintro ⟨body, hne, hbody, hcq⟩
        have hcut : [c] ++ [q] = body ++ ['\x60'] := hcq
        obtain ⟨rfl, hq⟩ := List.append_inj' hcut rfl
        exact ⟨hbody c List.mem_cons_self, List.head_eq_of_cons_eq hq⟩
  | case4 c rest hone htwo ih =>
      simp only [Bool.and_eq_true, isQuotable_iff, ih]
      constructor
      · rintro ⟨hc, body, hne, hbody, rfl⟩
        exact ⟨c :: body, List.cons_ne_nil c body, List.forall_mem_cons.2 ⟨hc, hbody⟩, rfl⟩
      · rintro ⟨body, hne, hbody, hrest⟩
        obtain ⟨d, ds, rfl⟩ := List.exists_cons_of_ne_nil hne
        obtain ⟨rfl, rfl⟩ := List.cons.inj hrest
        obtain ⟨hc, hds⟩ := List.forall_mem_cons.1 hbody
        refine ⟨hc, ds, ?_, hds, rfl⟩
        rintro rfl
        exact htwo _ rfl

/-- A quoted name may be a reserved word between its quotes, but it is none itself. -/
theorem not_mem_reserved {cs : List Char} : String.ofList ('\x60' :: cs) ∉ reserved := by
  have hheads : ∀ s ∈ reserved, s.toList.head? ≠ some '\x60' := by decide
  intro h
  exact hheads _ h (by simp)

end Name

open Name

theorem isName_iff {s : String} : isName s = true ↔ Declarable s.toList := by
  obtain ⟨cs, rfl⟩ : ∃ cs, s = String.ofList cs := ⟨s.toList, by simp⟩
  simp only [isName, String.toList_ofList, Bool.and_eq_true, Bool.or_eq_true,
    Bool.not_eq_true', List.contains_eq_mem, decide_eq_false_iff_not]
  constructor
  · rintro ⟨hshape, hfree⟩
    cases cs with
    | nil => simp [isPlain, isQuoted] at hshape
    | cons c cs =>
        rcases hshape with hplain | hquoted
        · obtain ⟨hc, hcs⟩ := isPlain_cons.1 hplain
          exact .plain hc hcs hfree
        · simp only [isQuoted, Bool.and_eq_true, decide_eq_true_eq, closesQuote_iff] at hquoted
          obtain ⟨rfl, body, hne, hbody, rfl⟩ := hquoted
          exact .quoted hne hbody
  · intro h
    cases h with
    | plain hc hcs hfree => exact ⟨.inl (isPlain_cons.2 ⟨hc, hcs⟩), hfree⟩
    | quoted hne hcs =>
        have hquote := closesQuote_iff.2 ⟨_, hne, hcs, rfl⟩
        exact ⟨.inr (by simp [isQuoted, hquote]), not_mem_reserved⟩

namespace Text

def Unbroken (s : String) : Prop := '\r' ∉ s.toList ∧ '\n' ∉ s.toList

instance (s : String) : Decidable (Unbroken s) := inferInstanceAs (Decidable (_ ∧ _))

/-- A text that is there and does not break its line. -/
structure OneLine (s : String) : Prop where
  ne_empty : s ≠ ""
  unbroken : Unbroken s

theorem Unbroken.append {s t : String} (hs : Unbroken s) (ht : Unbroken t) : Unbroken (s ++ t) := by
  rw [Unbroken, String.toList_append, List.mem_append, List.mem_append]
  exact ⟨not_or_intro hs.1 ht.1, not_or_intro hs.2 ht.2⟩

theorem OneLine.append {s t : String} (hs : OneLine s) (ht : Unbroken t) : OneLine (s ++ t) :=
  ⟨fun h => hs.ne_empty (String.append_eq_empty_iff.1 h).1, hs.unbroken.append ht⟩

theorem unbroken_intercalate {sep : String} {ss : List String} (hsep : Unbroken sep)
    (hss : ∀ s ∈ ss, Unbroken s) : Unbroken (sep.intercalate ss) := by
  induction ss with
  | nil => exact (by decide : Unbroken "")
  | cons s ss ih =>
      obtain ⟨hs, hss⟩ := List.forall_mem_cons.1 hss
      cases ss with
      | nil => rwa [String.intercalate_singleton]
      | cons t ts =>
          rw [String.intercalate_cons_cons]
          exact (hs.append hsep).append (ih hss)

theorem oneLine_of_isName {s : String} (h : isName s = true) : OneLine s := by
  obtain ⟨cs, rfl⟩ : ∃ cs, s = String.ofList cs := ⟨s.toList, by simp⟩
  have hcs := isName_iff.1 h
  rw [String.toList_ofList] at hcs
  cases hcs with
  | @plain c ds hc hds _ =>
      have htails : ∀ d ∈ c :: ds, IsTail d := List.forall_mem_cons.2 ⟨.inl hc, hds⟩
      refine ⟨by simp, ?_⟩
      rw [Unbroken, String.toList_ofList]
      exact ⟨fun hr => absurd (htails _ hr) (by decide), fun hn => absurd (htails _ hn) (by decide)⟩
  | @quoted body _ hbody =>
      have hmem {b : Char} (hb : b ≠ '\x60') (h : b ∈ '\x60' :: (body ++ ['\x60'])) : b ∈ body := by
        simpa [hb] using h
      refine ⟨by simp, ?_⟩
      rw [Unbroken, String.toList_ofList]
      exact ⟨fun hr => (hbody _ (hmem (by decide) hr)).2.1 rfl,
        fun hn => (hbody _ (hmem (by decide) hn)).2.2 rfl⟩

theorem oneLine_dotted {names : List String} (hne : names ≠ [])
    (h : ∀ n ∈ names, isName n = true) : OneLine (dotted names) := by
  refine ⟨fun hempty => ?_, ?_⟩
  · rcases dotted_eq_empty_iff.1 hempty with hnil | rfl
    · exact hne hnil
    · exact absurd (h "" List.mem_cons_self) (by decide)
  · exact unbroken_intercalate (by decide) fun n hn => (oneLine_of_isName (h n hn)).unbroken

end Text

namespace TypeName

open Text

/-- The types that can be made. A type is made from names, from a dotted name, or from types that
are made already. -/
inductive Made (unit : IndentUnit) : TypeName → Prop
  | named {package : Option String} {names : List Value} {nullable : Bool} {t : TypeName}
      (h : ofNames unit package names nullable = .ok t) : Made unit t
  | guessed {v : Value} {t : TypeName} (h : guess unit v = .ok t) : Made unit t
  | nested {t u : TypeName} {name : Value} (ht : Made unit t)
      (h : TypeName.nested unit (.type t) name = .ok u) : Made unit u
  | applied {raw t : TypeName} {args : List TypeName} {nullable : Bool} (hraw : Made unit raw)
      (hargs : ∀ a ∈ args, Made unit a)
      (h : TypeName.applied unit (.type raw) (args.map .type) nullable = .ok t) : Made unit t
  | parameterized {raw t : TypeName} {args : List TypeName} (hraw : Made unit raw)
      (hargs : ∀ a ∈ args, Made unit a)
      (h : parameterizedBy unit (.type raw) (args.map .type) = .ok t) : Made unit t
  | typeVar {name variance : Value} {bounds : List Value} {reified nullable : Bool} {t : TypeName}
      (h : ofVariable unit name bounds variance reified nullable = .ok t) : Made unit t
  | renulled {t : TypeName} (ht : Made unit t) (nullable : Bool) :
      Made unit (t.withNullable nullable)

variable {unit : IndentUnit} {t : TypeName} {s : String}

inductive WellNamed : TypeName → Prop
  | named {package : Option String} {names : List String} {nullable : Bool} (hne : names ≠ [])
      (h : ∀ n ∈ names, isName n = true) : WellNamed (.named package names nullable)
  | generic {raw : TypeName} {args : List TypeName} {nullable : Bool} (hraw : WellNamed raw)
      (hargs : ∀ a ∈ args, WellNamed a) :
      WellNamed (.generic (.type raw) (args.map .type) nullable)
  | typeVar {name : String} {bounds : List Value} {variance : Option Variance}
      {reified nullable : Bool} (h : isName name = true) :
      WellNamed (.typeVar name bounds variance reified nullable)

theorem wellNamed_of_ofNames {package : Option String} {names : List Value} {nullable : Bool}
    (h : ofNames unit package names nullable = .ok t) : WellNamed t := by
  cases names with
  | nil => cases h
  | cons v vs =>
      obtain ⟨ns, hns, ht⟩ := ok_of_bind h
      cases ht
      refine .named ?_ fun n hn => ?_
      · rintro rfl
        rw [List.mapM_cons] at hns
        obtain ⟨m, _, hms⟩ := ok_of_bind hns
        exact bind_ne_ok nofun hms
      · obtain ⟨v, _, hv⟩ := exists_of_mapM_ok hns n hn
        exact (Value.isName_of_asName hv).2

theorem wellNamed_of_applied {raw : TypeName} {args : List TypeName} {nullable : Bool}
    (hraw : WellNamed raw) (hargs : ∀ a ∈ args, WellNamed a)
    (h : TypeName.applied unit (.type raw) (args.map .type) nullable = .ok t) : WellNamed t := by
  cases args with
  | nil => exact absurd h (bind_ne_ok nofun)
  | cons a as =>
      cases h
      exact .generic hraw hargs

theorem WellNamed.withNullable (h : WellNamed t) (nullable : Bool) :
    WellNamed (t.withNullable nullable) := by
  cases h with
  | named hne hnames => exact .named hne hnames
  | generic hraw hargs => exact .generic hraw hargs
  | typeVar hname => exact .typeVar hname

theorem Made.wellNamed (h : Made unit t) : WellNamed t := by
  induction h with
  | named h => exact wellNamed_of_ofNames h
  | @guessed v t h =>
      cases v with
      | str s =>
          obtain ⟨_, names, hcut, _, hnames, rfl⟩ := guess_eq_ok_iff.1 h
          exact .named hcut.names_ne_nil hnames
      | _ => cases h
  | @nested t u name _ h _ =>
      cases t with
      | named package names nullable => exact wellNamed_of_ofNames h
      | _ => cases h
  | applied _ _ h hraw hargs => exact wellNamed_of_applied hraw hargs h
  | @parameterized raw t args _ _ h hraw hargs =>
      cases raw with
      | named package names nullable => exact wellNamed_of_applied hraw hargs h
      | _ => cases h
  | typeVar h =>
      obtain ⟨name, hname, h⟩ := ok_of_bind h
      obtain ⟨variance, _, h⟩ := ok_of_bind h
      cases h
      exact .typeVar (Value.isName_of_asName hname).2
  | renulled _ nullable ht => exact ht.withNullable nullable

def mark (nullable : Bool) : String := if nullable then "?" else ""

theorem unbroken_mark (nullable : Bool) : Unbroken (mark nullable) := by
  cases nullable <;> decide

theorem text_generic {raw : TypeName} {args : List TypeName} {shown : List String}
    (hraw : raw.text unit = .ok s) (hargs : args.mapM (·.text unit) = .ok shown)
    (nullable : Bool) :
    (generic (.type raw) (args.map .type) nullable).text unit =
      .ok (s ++ "<" ++ ", ".intercalate shown ++ ">" ++ mark nullable) := by
  have hforms : (Value.formsAll unit (args.map .type)).mapM (·.text) = .ok shown := by
    rw [Value.formsAll_eq, List.map_map, List.mapM_map]
    exact hargs
  have hnames : (do
      let shown ← (Value.formsAll unit (args.map .type)).mapM (·.text)
      return (← raw.text unit) ++ "<" ++ ", ".intercalate shown ++ ">" : Except Error String) =
        .ok (s ++ "<" ++ ", ".intercalate shown ++ ">") := by
    rw [hforms, hraw]
    rfl
  show (do return (← _) ++ mark nullable : Except Error String) = _
  exact congrArg (fun names => names >>= fun n => Except.ok (n ++ mark nullable)) hnames

theorem WellNamed.exists_text (h : WellNamed t) (unit : IndentUnit) :
    ∃ s, t.text unit = .ok s ∧ OneLine s := by
  induction h with
  | named hne hnames => exact ⟨_, rfl, (oneLine_dotted hne hnames).append (unbroken_mark _)⟩
  | @generic raw args nullable _ _ hraw hargs =>
      obtain ⟨s, hs, hline⟩ := hraw
      obtain ⟨shown, hshown, hlines⟩ := mapM_all_ok hargs
      refine ⟨_, text_generic hs hshown nullable, ?_⟩
      have hinner : Unbroken (", ".intercalate shown) :=
        unbroken_intercalate (by decide) fun a ha => (hlines a ha).unbroken
      exact (((hline.append (by decide)).append hinner).append (by decide)).append (unbroken_mark _)
  | typeVar hname => exact ⟨_, rfl, (oneLine_of_isName hname).append (unbroken_mark _)⟩

theorem writtenWith_type (t : TypeName) (unit : IndentUnit) :
    (Value.type t).writtenWith unit [] = Layout.ofText (t.text unit) := by
  cases t <;> rfl

theorem run_value_of_text (hs : t.text unit = .ok s) (h : OneLine s) (w : Writer) :
    (Command.value (.type t) []).run unit w =
      ⟨w.margin ++ s.toList, { w with lineStart := false }, none⟩ := by
  have hne : s.toList ≠ [] := fun hnil => h.ne_empty (String.toList_eq_nil_iff.1 hnil)
  obtain ⟨c, cs, hcs⟩ := List.exists_cons_of_ne_nil hne
  have hbreak : '\n' ∉ c :: cs := hcs ▸ h.unbroken.2
  calc (Command.value (.type t) []).run unit w
      = ((Value.type t).writtenWith unit []).run w := rfl
    _ = (Layout.text s).run w := by rw [writtenWith_type, hs]; rfl
    _ = ⟨w.margin ++ s.toList, { w with lineStart := false }, none⟩ := by
        rw [Layout.run_line hcs hbreak, hcs]

/-- The names that can be declared are the identifiers that are not reserved and the quoted names of
one line. So each type has a text, on one line, and wherever a writer stands, it writes that text
in one piece, behind the margin if it is at the start of a line. Its level and its statement stay as
they are. -/
theorem declared_on_one_line :
    (∀ s : String, isName s = true ↔ Declarable s.toList) ∧
      ∀ (unit : IndentUnit) (t : TypeName), Made unit t →
        ∃ s, t.text unit = .ok s ∧ OneLine s ∧
          ∀ w : Writer, (Command.value (.type t) []).run unit w =
            ⟨w.margin ++ s.toList, { w with lineStart := false }, none⟩ := by
  refine ⟨fun _ => isName_iff, fun unit t ht => ?_⟩
  obtain ⟨s, hs, hline⟩ := ht.wellNamed.exists_text unit
  exact ⟨s, hs, hline, run_value_of_text hs hline⟩

/-- Arguments inside arguments, a type variable that may be null, and a quoted reserved word as the
name of a nested class, written on a continuation line in a comment. -/
theorem declared_on_one_line_nested :
    let unit : IndentUnit := .ok "  "
    let entry : TypeName := .named (some "a") ["Map", "\x60in\x60"] false
    let free : TypeName := .typeVar "T" [] none false true
    let inner : TypeName := .generic (.type entry) [.type free] false
    let outer : TypeName := .generic (.type entry) [.type inner, .type free] true
    let s := "Map.\x60in\x60<Map.\x60in\x60<T?>, T?>?"
    let w : Writer := ⟨"  ", 2, true, true, 1, []⟩
    Made unit outer ∧ outer.text unit = .ok s ∧ isName "\x60in\x60" = true ∧
      (Command.value (.type outer) []).run unit w =
        ⟨"     * ".toList ++ s.toList, { w with lineStart := false }, none⟩ := by
  intro unit entry free inner outer s w
  have hentry : Made unit entry := by
    let map : TypeName := .named (some "a") ["Map"] false
    have hmap : ofNames unit (some "a") [.str "Map"] false = .ok map := rfl
    have hin : TypeName.nested unit (.type map) (.str "\x60in\x60") = .ok entry := rfl
    exact .nested (.named hmap) hin
  have hfree : Made unit free := by
    have hT : ofVariable unit (.str "T") [] .null false true = .ok free := rfl
    exact .typeVar hT
  have hinner : Made unit inner := by
    have h : parameterizedBy unit (.type entry) ([free].map .type) = .ok inner := rfl
    exact .parameterized hentry (List.forall_mem_singleton.2 hfree) h
  have houter : Made unit outer := by
    have h : TypeName.applied unit (.type entry) ([inner, free].map .type) false =
      .ok (.generic (.type entry) [.type inner, .type free] false) := rfl
    have hargs : ∀ a ∈ [inner, free], Made unit a :=
      List.forall_mem_cons.2 ⟨hinner, List.forall_mem_singleton.2 hfree⟩
    exact (Made.applied hentry hargs h).renulled true
  obtain ⟨hnames, htypes⟩ := declared_on_one_line
  have hquoted : Declarable ('\x60' :: (['i', 'n'] ++ ['\x60'])) := .quoted nofun (by simp)
  obtain ⟨r, hr, _, hrun⟩ := htypes unit outer houter
  have hs : outer.text unit = .ok s := rfl
  obtain rfl : s = r := Except.ok.inj (hs.symm.trans hr)
  have hmargin : w.margin = "     * ".toList := by decide
  exact ⟨houter, hs, (hnames _).2 hquoted, hmargin ▸ hrun w⟩

end TypeName

end KotlinDecl
