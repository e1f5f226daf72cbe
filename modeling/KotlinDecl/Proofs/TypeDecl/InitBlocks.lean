import KotlinDecl.Proofs.Failures.Calls
import KotlinDecl.Proofs.Layout.Lockstep
import KotlinDecl.Proofs.TypeDecl.Initializers

namespace KotlinDecl

open Edit
open Layout (text empty indent unindent freshLine block)

theorem Text.endsLine_iff (cs : List Char) :
    endsLine true cs = true ↔ cs = [] ∨ cs.getLast? = some '\n' := by
  rcases List.eq_nil_or_concat cs with rfl | ⟨front, c, rfl⟩
  · simp [endsLine]
  · simp [endsLine_append, endsLine]

namespace Layout

theorem run_whole_line {s : String} {c : Char} {cs : List Char} (hs : s.toList = c :: cs ++ ['\n'])
    (h : '\n' ∉ c :: cs) (w : Writer) :
    (text s).run w =
      ⟨w.margin ++ (c :: cs) ++ ['\n'], { w with lineStart := false }.broken, none⟩ := by
  rw [run, hs, Writer.emit_append, Writer.emit_line w h]
  simp [Writer.emit, Writer.put, Writer.wrote]

/-- Parts that take no argument do not care what the parts in front of them have left over. -/
theorem run_code_append_of_fixed {qs : List Part}
    (h : ∀ as, (code qs as).run = (code qs []).run) (ps : List Part)
    (as : List (Placeholder → Layout)) :
    (code (ps ++ qs) as).run = (code ps as ++ code qs []).run := by
  induction ps generalizing as with
  | nil => exact h as
  | cons p ps ih =>
      have hcons (d : Layout) (as : List (Placeholder → Layout)) :
          (d ++ code (ps ++ qs) as).run = (d ++ code ps as ++ code qs []).run := by
        rw [run_append_assoc]
        exact run_append_congr rfl (ih as)
      cases p with
      | argument p =>
          cases as with
          | nil => rfl
          | cons a as => exact hcons (a p) as
      | split c => rfl
      | _ => exact hcons _ as

theorem strays_brace {w : Writer} (hlevel : 1 ≤ w.level) (hstatement : -1 ≤ w.statement) :
    Written.Strays (!w.lineStart) ((unindent ++ text "\x7d\n").run w)
      ((freshLine ++ (unindent ++ text "\x7d\n")).run w) := by
  cases hstart : w.lineStart with
  | true =>
      have hfresh : freshLine.run w = w.quiet := by rw [run, Writer.freshLine, hstart]; rfl
      rw [run_append freshLine, hfresh]
      exact ⟨rfl, rfl, fun _ => rfl, fun h => absurd h Bool.false_ne_true⟩
  | false =>
      have hfresh : freshLine.run w = ⟨['\n'], w.broken, none⟩ := by
        rw [run, Writer.freshLine, hstart]
        simp [Writer.emit, Writer.put, Writer.wrote, hstart]
      have hbrace (v : Writer) : (text "\x7d\n").run v =
          ⟨v.margin ++ ['\x7d'] ++ ['\n'], { v with lineStart := false }.broken, none⟩ :=
        run_whole_line rfl (by decide) v
      have hbroken : 1 ≤ w.broken.level := by
        simp only [Writer.broken, Writer.continuation]
        split <;> omega
      rw [run_append freshLine, hfresh, Written.andThen_of_ok rfl, run_append, run_append, run, run,
        Writer.unindent_of_le hlevel, Writer.unindent_of_le hbroken]
      simp only [Writer.quiet, Written.andThen_of_ok, hbrace]
      refine ⟨rfl, ?_, fun h => absurd h.symm Bool.false_ne_true, fun _ _ => ?_⟩
      · -- In an open statement the first line break adds to the level on either side, and a second
        -- one is only counted.
        simp only [Writer.settled, Writer.broken, Writer.continuation, Writer.mk.injEq, true_and,
          and_true]
        constructor <;> grind
      · simp [Writer.margin, hstart]

end Layout

namespace TypeDecl

variable {unit : IndentUnit} {e e' : TypeDecl} {f : FunDecl} {b : CodeBlock} {s : String}

def initCode (b : CodeBlock) : CodeBlock :=
  ⟨[.text "init \x7b\n", .indent] ++ b.parts ++ [.unindent, .text "\x7d\n"], b.args⟩

def initFront (unit : IndentUnit) (b : CodeBlock) : Layout :=
  text "init \x7b\n" ++ indent ++ b.layout unit

theorem run_initCode (unit : IndentUnit) (b : CodeBlock) :
    ((initCode b).layout unit).run =
      (initFront unit b ++ (unindent ++ text "\x7d\n")).run := by
  have hclose (as : List (Placeholder → Layout)) :
      (Layout.code [.unindent, .text "\x7d\n"] as).run = (unindent ++ text "\x7d\n").run :=
    Layout.run_append_congr rfl (Layout.run_append_empty _)
  rw [CodeBlock.layout_eq, initFront, CodeBlock.layout_eq]
  show (text "init \x7b\n" ++
    (indent ++ Layout.code (b.parts ++ [.unindent, .text "\x7d\n"]) _)).run = _
  rw [Layout.run_append_assoc (text "init \x7b\n" ++ indent),
    Layout.run_append_assoc (text "init \x7b\n")]
  refine Layout.run_append_congr rfl (Layout.run_append_congr rfl ?_)
  rw [Layout.run_code_append_of_fixed fun as => (hclose as).trans (hclose []).symm]
  exact Layout.run_append_congr rfl (hclose [])

theorem run_initBlock (unit : IndentUnit) (b : CodeBlock) :
    (initBlock unit b).run =
      (initFront unit b ++ (freshLine ++ (unindent ++ text "\x7d\n"))).run := by
  have hhead : (text "init \x7b\n").run = (text "init" ++ text " \x7b\n").run :=
    Layout.run_text_append "init" " \x7b\n"
  have hrest : (block (b.layout unit)).run = (text " \x7b\n" ++ (indent ++ (b.layout unit ++
      (freshLine ++ (unindent ++ text "\x7d\n"))))).run := by
    funext w
    simp only [block, Layout.run_append, Written.andThen_assoc]
    rfl
  funext w
  rw [initBlock, Layout.run_append, hrest]
  simp only [initFront, Layout.run_append, Written.andThen_assoc, hhead]
  rfl

/-- Inside the block the code meets what it meets on its own, some levels deeper. -/
theorem nested_initHead (u : String) {w : Writer} (hw : w.Sound) :
    ∃ k, 1 ≤ k ∧ Writer.Nested k (.fresh u) ((text "init \x7b\n" ++ indent).run w).writer := by
  have hchars : "init \x7b\n".toList = 'i' :: ['n', 'i', 't', ' ', '\x7b'] ++ ['\n'] := rfl
  rw [Layout.run_append, Layout.run_whole_line hchars (by decide), Written.andThen_of_ok rfl]
  have hbroken := Writer.Sound.broken (w := { w with lineStart := false }) ⟨hw.level, hw.statement⟩
  refine ⟨_, Int.add_le_add_right hbroken.level 1, rfl, (Int.zero_add _).symm, ?_⟩
  by_cases hclosed : w.statement = -1
  · exact .inl (if_pos hclosed)
  · have hcount := hw.statement
    refine .inr ⟨rfl, ?_⟩
    show 0 < if w.statement = -1 then -1 else w.statement + 1
    rw [if_neg hclosed]
    omega

/-- Behind the code a line begins just if one begins behind its text, and the code has not left the
block. -/
theorem initFront_writer (hs : b.text unit = .ok s) {w : Writer} (hw : w.Sound)
    (hok : ((initFront unit b).run w).error = none) :
    ((initFront unit b).run w).writer.lineStart = Text.endsLine true s.toList ∧
      1 ≤ ((initFront unit b).run w).writer.level := by
  obtain ⟨u, rfl, halone, htext⟩ := Layout.run_of_alone hs
  obtain ⟨hhead, hcode⟩ := Written.error_of_andThen hok
  obtain ⟨k, hk, hnested⟩ := nested_initHead u hw
  rw [initFront, Layout.writer_run_append hhead]
  have hend := (b.layout (.ok u)).run_nested hnested halone hcode
  constructor
  · rw [hend.lineStart, Layout.lineStart_run, htext]
    rfl
  · have hfresh : (Writer.fresh u).Sound := ⟨Int.le_refl _, Int.le_refl _⟩
    have hground := ((b.layout (.ok u)).run_sound hfresh).level
    rw [hend.level]
    omega

theorem strays_init (hs : b.text unit = .ok s) :
    Layout.Strays (!Text.endsLine true s.toList) ((initCode b).layout unit)
      (initBlock unit b) := by
  refine Layout.Strays.of_run ?_ (run_initCode unit b) (run_initBlock unit b)
  intro w hw
  refine .behind fun hok => ?_
  obtain ⟨hstart, hlevel⟩ := initFront_writer hs hw hok
  have hstatement := ((initFront unit b).run_sound hw).statement
  rw [← hstart]
  exact Layout.strays_brace hlevel hstatement

theorem initializerBlock_of_empty :
    initializerBlock unit (.code b) .empty = .ok () (initCode b) := by
  have hparts : initializerBlock unit (.code b) .empty = .ok () (.empty ++
    ⟨[.text "init \x7b\n"], []⟩ ++ ⟨[.indent], []⟩ ++ b ++ ⟨[.unindent], []⟩ ++
    ⟨[.text "\x7d\n"], []⟩) := rfl
  have hcode : (CodeBlock.empty ++ ⟨[.text "init \x7b\n"], []⟩ ++ ⟨[.indent], []⟩ ++ b ++
      ⟨[.unindent], []⟩ ++ ⟨[.text "\x7d\n"], []⟩) = initCode b := by
    show CodeBlock.mk (([] ++ [_] ++ [_] ++ b.parts ++ [_]) ++ [_])
      (([] ++ [] ++ [] ++ b.args ++ []) ++ []) = _
    simp [initCode]
  rw [hparts, hcode]

theorem not_annotation_of_require {feature : Feature} (hf : feature ≠ .primaryConstructor)
    (h : require unit feature e = .ok () e) : e.isKind .annotationKind = false := by
  by_contra hk
  have hkind : e.kind = .kind .annotationKind := by
    cases hv : e.kind <;> simp_all [isKind]
  have hrefused : Kind.accepts .annotationKind feature = false := by simp [Kind.accepts, hf]
  rw [require, get_bind, bind_of_ok (require_knownKind hkind), hrefused] at h
  change refuse unit (.featureRefused .annotationKind feature) e = .ok () e at h
  rw [refuse_of_kind hkind] at h
  cases h

/-- The call keeps the block with its head and its foot. Annotation classes refuse it. -/
theorem of_addInitializerBlock (hinit : e.initializer = .empty)
    (h : (Call.addInitializerBlock (.code b)).apply unit e = .ok () e') :
    e' = { e with initializer := initCode b } ∧ e.isKind .annotationKind = false := by
  change addInitializerBlock unit (.code b) e = .ok () e' at h
  constructor
  · rcases addInitializerBlock_cases unit (.code b) e with ⟨x, hx, _⟩ | hcode
    · rw [hx] at h
      cases h
    · rw [hcode, onInitializer, Edit.on, hinit, initializerBlock_of_empty] at h
      cases h
      rfl
  · rcases require_cases unit .initializerBlock e with ⟨k, _, hr⟩ | ⟨x, hr, _⟩
    · exact not_annotation_of_require (by decide) hr
    · rw [addInitializerBlock, bind_of_error hr] at h
      cases h

end TypeDecl

namespace TypePieces

variable {d d' : TypePieces} {fs : List (String × PropertyPieces)}

/-- The declarations differ at most in their initializer code. -/
structure Around (d d' : TypePieces) : Prop where
  folded : d'.folded = d.folded
  header (label : Option Layout) (fs : List (String × PropertyPieces)) :
    d'.header label fs = d.header label fs
  ahead (names : List String) : d'.membersAhead names = d.membersAhead names
  after : d'.membersAfter = d.membersAfter
  closing (label : Option Layout) : d'.closing label = d.closing label

theorem layout_of_initializer {i : Layout} (hfs : d.folded = .ok fs)
    (hbody : d.decl.hasNoBody (fs.map (·.1)) = false) (hinit : d.initializers = [i])
    (label : Option Layout) :
    d.layout label = .declaration (d.header label fs ++ (text " \x7b\n" ++
      .body (.decl none (.typeDecl d.decl)) (.members true
        ((d.membersAhead (fs.map (·.1)) ++ [i]).map .ok ++ d.membersAfter)) ++
      text "\x7d" ++ d.closing label)) := by
  rw [layout_eq_layoutAround hfs, hinit, layoutAround]
  simp only [hbody, Bool.false_eq_true, if_false]

theorem Around.strays (h : Around d d') {apart : Bool} {i i' : Layout}
    (hbody : ∀ names, d.decl.hasNoBody names = false)
    (hbody' : ∀ names, d'.decl.hasNoBody names = false) (hinit : d.initializers = [i])
    (hinit' : d'.initializers = [i']) (hi : Layout.Strays apart i i') (label : Option Layout)
    {w : Writer} (hw : 0 ≤ w.level) :
    Written.Strays apart ((d.layout label).run w) ((d'.layout label).run w) := by
  cases hfs : d.folded with
  | error x =>
      rw [layout, layout, h.folded, hfs]
      exact ⟨rfl, rfl, fun _ => rfl, fun _ hok => by cases hok⟩
  | ok fs =>
      rw [layout_of_initializer hfs (hbody _) hinit,
        layout_of_initializer (h.folded.trans hfs) (hbody' _) hinit', h.header, h.ahead, h.after,
        h.closing]
      exact (((((hi.members true _ _).body _ _).prepend _).append _).append _).prepend _
        |>.declaration hw

end TypePieces

namespace TypeDecl

variable {unit : IndentUnit} {e e' : TypeDecl} {f : FunDecl} {b : CodeBlock} {s : String}

abbrev withInit (e : TypeDecl) (b : CodeBlock) : TypeDecl := { e with initializer := initCode b }

abbrev withBody (e : TypeDecl) (f : FunDecl) (b : CodeBlock) : TypeDecl :=
  { e with primaryConstructor := some { f with body := b } }

theorem isEmpty_initCode : (initCode b).isEmpty = false := by
  simp [initCode, CodeBlock.isEmpty]

theorem hasMembers_withInit (names : List String) :
    (e.withInit b).hasMembersAfterConstants names = true := by
  simp [hasMembersAfterConstants, isEmpty_initCode]

theorem hasMembers_withBody (hb : b.isEmpty = false) (names : List String) :
    (e.withBody f b).hasMembersAfterConstants names = true := by
  simp [hasMembersAfterConstants, hasConstructorBody, hb]

theorem around_pieces (hf : e.primaryConstructor = some f) (hb : b.isEmpty = false) :
    TypePieces.Around ((e.withInit b).pieces unit) ((e.withBody f b).pieces unit) where
  folded := by
    cases e
    cases hf
    cases f
    rfl
  header label fs := by
    cases e
    cases hf
    cases f
    rfl
  ahead names := by
    rw [TypePieces.membersAhead, TypePieces.membersAhead, decl_pieces, decl_pieces,
      hasMembers_withInit, hasMembers_withBody hb, constants_pieces, constants_pieces,
      properties_pieces, properties_pieces]
    rfl
  after := by
    cases e
    rfl
  closing label := by
    cases e
    rfl

theorem initializers_withInit (hf : e.primaryConstructor = some f) (hbody : f.body.isEmpty = true) :
    ((e.withInit b).pieces unit).initializers = [(initCode b).layout unit] := by
  rw [TypePieces.initializers, primaryConstructor_pieces, decl_pieces, initializer_pieces, hf]
  simp [hbody, isEmpty_initCode]

theorem initializers_withBody (hinit : e.initializer = .empty) (hb : b.isEmpty = false) :
    ((e.withBody f b).pieces unit).initializers = [initBlock unit b] := by
  have hempty : (e.withBody f b).initializer.isEmpty = true := by
    show e.initializer.isEmpty = true
    rw [hinit]
    rfl
  rw [initializers_pieces hempty]
  simp [constructorCode, hb]

/-- Code that is given in the two ways is written, or fails, alike up to its last line. The texts
are the same just if the code ends a line or has no text at all. -/
theorem initializer_code_agrees (hf : e.primaryConstructor = some f)
    (hbody : f.body.isEmpty = true) (hinit : e.initializer = .empty) (hb : b.isEmpty = false)
    (hs : b.text unit = .ok s)
    (hcall : (Call.addInitializerBlock (.code b)).apply unit e = .ok () e')
    (label : Option Layout) {w : Writer} (hw : 0 ≤ w.level) :
    let given := ((e'.pieces unit).layout label).run w
    let read := (((e.withBody f b).pieces unit).layout label).run w
    read.error = given.error ∧
      (given.error = none →
        (given.text = read.text ↔ s = "" ∨ s.toList.getLast? = some '\n')) := by
  obtain ⟨rfl, hkind⟩ := of_addInitializerBlock hinit hcall
  have hgiven (names : List String) :
      ((e.withInit b).pieces unit).decl.hasNoBody names = false := by
    have hk : (e.withInit b).isKind .annotationKind = false := hkind
    rw [decl_pieces, ← Bool.not_eq_true, hasNoBody_iff _ _ hk, hasMembers_withInit]
    simp
  have hread (names : List String) :
      ((e.withBody f b).pieces unit).decl.hasNoBody names = false := by
    have hk : (e.withBody f b).isKind .annotationKind = false := hkind
    rw [decl_pieces, ← Bool.not_eq_true, hasNoBody_iff _ _ hk, hasMembers_withBody hb]
    simp
  have hstrays := (around_pieces hf hb).strays hgiven hread (initializers_withInit hf hbody)
    (initializers_withBody hinit hb) (strays_init hs) label hw
  refine ⟨hstrays.error, fun hok => ?_⟩
  rw [hstrays.text_eq_iff hok, Bool.not_eq_false', Text.endsLine_iff, String.toList_eq_nil_iff]

/-- A statement between a property and a function. -/
theorem initializer_code_agrees_statement :
    let unit : IndentUnit := .ok "  "
    let b : CodeBlock := ⟨[.openStatement, .text "x()", .text "\n", .closeStatement], []⟩
    let f := FunDecl.plain FunDecl.constructorName
    let p : PropertyDecl := .plain "p" (.type (.named none ["Int"] false))
    let e := { plain (.kind .classKind) (some "A") none with
      primaryConstructor := some f
      properties := [p]
      functions := [.decl none (.function (.plain "g"))] }
    let given := (((e.withInit b).pieces unit).layout none).run (.fresh "  ")
    let read := (((e.withBody f b).pieces unit).layout none).run (.fresh "  ")
    b.isEmpty = false ∧ b.text unit = .ok "x()\n" ∧
      (Call.addInitializerBlock (.code b)).apply unit e = .ok () (e.withInit b) ∧
      given.error = none ∧ read.error = none ∧ given.text = read.text := by
  intro unit b f p e given read
  have hs : b.text unit = .ok "x()\n" := rfl
  have hcall : (Call.addInitializerBlock (.code b)).apply unit e = .ok () (e.withInit b) := rfl
  obtain ⟨herror, htext⟩ := initializer_code_agrees rfl rfl rfl rfl hs hcall none
    (w := .fresh "  ") (Int.le_refl 0)
  have hok : given.error = none := by decide
  exact ⟨rfl, hs, hcall, hok, herror.trans hok, (htext hok).2 (.inr rfl)⟩

/-- Code that ends inside a line: only the body of a constructor gets a line break behind it. -/
theorem initializer_code_parts :
    let unit : IndentUnit := .ok "  "
    let b : CodeBlock := ⟨[.text "x()"], []⟩
    let f := FunDecl.plain FunDecl.constructorName
    let d := plain (.kind .classKind) (some "A") none
    let e := { d with primaryConstructor := some f }
    startNamed unit .classKind (.str "A") = .ok d ∧
      Edit.forEach (Call.apply unit) [.primaryConstructor (.decl none (.function f)),
        .addInitializerBlock (.code b)] d = .ok () (e.withInit b) ∧
      (Call.primaryConstructor (.decl none (.function { f with body := b }))).apply unit d =
        .ok () (e.withBody f b) ∧
      (e.withInit b).build unit = .ok (e.withInit b) ∧
      (e.withBody f b).build unit = .ok (e.withBody f b) ∧ b.text unit = .ok "x()" ∧
      ((((e.withInit b).pieces unit).layout none).run (.fresh "  ")).text =
        "class A() \x7b\n  init \x7b\n    x()\x7d\n\x7d\n".toList ∧
      ((((e.withBody f b).pieces unit).layout none).run (.fresh "  ")).text =
        "class A() \x7b\n  init \x7b\n    x()\n  \x7d\n\x7d\n".toList := by
  exact ⟨rfl, rfl, rfl, rfl, rfl, rfl, by decide, by decide⟩

end TypeDecl

end KotlinDecl
