import KotlinDecl.Proofs.Atomicity

namespace KotlinDecl

open Edit

def Error.isCodeFormat : Error → Bool
  | .codeFormat .. => true
  | _ => false

namespace CodeBlock

variable {unit : IndentUnit} {c : CodeBlock} {I : CodeBlock → Prop}
  {Q : Unit → CodeBlock → Prop}

def Call.opening : Call → List Part
  | addStatement .. => [.openStatement]
  | nextControlFlow .. => [.unindent]
  | _ => []

theorem append_eq_self_iff {ps : List Part} : c ++ ⟨ps, []⟩ = c ↔ ps = [] := by
  cases c with
  | mk qs vs =>
      change CodeBlock.mk (qs ++ ps) (vs ++ []) = CodeBlock.mk qs vs ↔ ps = []
      rw [CodeBlock.mk.injEq, List.append_nil, List.append_right_eq_self]
      exact and_iff_left rfl

theorem yields_add {format : Value} {args : List Value} (hi : I c)
    (h : ∀ d, ofFormat unit format args = .ok d → Q () (c ++ d)) :
    (add unit format args).Yields c I Q :=
  yields_bind (yields_require hi fun d hd => yields_modify (h d hd))

theorem yields_addHead {front : String} {head : Value} {args : List Value} (hi : I c)
    (h : ∀ d, Q () (c ++ d)) : (addHead unit front head args).Yields c I Q := by
  cases head with
  | str s => exact yields_add hi fun d _ => h d
  | _ => exact hi

theorem add_statementEnd (unit : IndentUnit) (c : CodeBlock) :
    add unit (.str "\n%]") [] c = .ok () (c ++ ⟨[.text "\n", .closeStatement], []⟩) := rfl

theorem Call.yields_opening (unit : IndentUnit) (call : Call) (c : CodeBlock) :
    (call.apply unit).Yields c (· = c ++ ⟨call.opening, []⟩) fun _ _ => True := by
  cases call with
  | add format args => exact yields_add (append_eq_self_iff.2 rfl).symm fun _ _ => trivial
  | addStatement format args =>
      refine yields_bind (yields_modify (yields_bind (yields_add rfl fun d _ => ?_)))
      rw [Yields, add_statementEnd]
      trivial
  | beginControlFlow head args =>
      exact yields_bind (yields_addHead (append_eq_self_iff.2 rfl).symm fun _ => trivial)
  | nextControlFlow head args =>
      exact yields_bind (yields_modify (yields_bind (yields_addHead rfl fun _ => trivial)))
  | endControlFlow | indent | unindent => trivial

end CodeBlock

namespace FunDecl

variable {unit : IndentUnit} {f : FunDecl}

theorem withBody_eq_iff {c : CodeBlock} : { f with body := c } = f ↔ c = f.body := by
  cases f
  simp

theorem withDelegation_eq_iff {o : Option Delegation} :
    { f with delegation := o } = f ↔ o = f.delegation := by
  cases f
  simp

theorem yields_body (unit : IndentUnit) (call : CodeBlock.Call) (f : FunDecl) :
    (onBody (call.apply unit)).Yields f (· = { f with body := f.body ++ ⟨call.opening, []⟩ })
      fun _ _ => True := by
  refine yields_on ((call.yields_opening unit f.body).mono ?_ fun _ _ h => h)
  rintro _ rfl
  rfl

/-- A call of another constructor is noted before its arguments are read. -/
theorem outcome_delegate {target : Delegation} {args : List Value} {e : Error}
    (he : ((delegate unit target args).outcome f).2 = some e) (hx : e.isCodeFormat = true) :
    ((delegate unit target args).outcome f).1 = { f with delegation := some target } := by
  cases hc : f.isConstructor with
  | true =>
      have hy : (delegate unit target args).Yields f (· = { f with delegation := some target })
          fun _ _ => True := by
        rw [Yields, delegate_of_constructor hc]
        exact yields_bind (yields_require rfl fun _ _ => yields_modify trivial)
      exact hy.of_failure he
  | false =>
      rw [outcome_of_error (delegate_of_other hc target args)] at he
      cases he
      cases hx

end FunDecl

namespace TypeDecl

variable {unit : IndentUnit} {d : TypeDecl}

theorem yields_initializerBlock (unit : IndentUnit) (block : Value) (d : TypeDecl) :
    (onInitializer (initializerBlock unit block)).Yields d
      (· = { d with initializer := d.initializer ++ initializerHead }) fun _ _ => True := by
  refine yields_on (yields_bind (yields_modify (yields_bind (yields_modify ?_))))
  refine yields_bind (CodeBlock.yields_add ?_ fun _ _ => trivial)
  rw [CodeBlock.append_assoc]
  rfl

theorem outcome_addInitializerBlock {block : Value} {e : Error}
    (he : ((addInitializerBlock unit block).outcome d).2 = some e) (hx : e.isCodeFormat = true) :
    ((addInitializerBlock unit block).outcome d).1 =
      { d with initializer := d.initializer ++ initializerHead } := by
  rcases addInitializerBlock_cases unit block d with ⟨x, hr, hcause⟩ | hr
  · rw [outcome_of_error hr] at he
    cases he
    rcases hcause with rfl | hv
    · cases hx
    · cases e with
      | configuration v kind => cases hx
      | _ => cases hv
  · have ho : (addInitializerBlock unit block).outcome d =
        (onInitializer (initializerBlock unit block)).outcome d := by
      rw [outcome, hr, outcome]
    rw [ho] at he ⊢
    exact (yields_initializerBlock unit block d).of_failure he

end TypeDecl

namespace Draft

def Call.takesCode : Call → Bool
  | code _ | annotationUse _ | parameter (.defaultValue ..) => true
  | function (.addKdoc ..) | function (.delegate ..) | function (.body _) => true
  | property (.addKdoc ..) | property (.initializer ..) | property (.delegate ..) => true
  | typeDecl (.addKdoc ..) | typeDecl (.addSuperclassArg ..) => true
  | typeDecl (.addInitializerBlock _) => true
  | _ => false

/-- The draft with what a call writes before it reads its format. -/
def Call.residue : Call → Draft → Draft
  | code c, .code d => .code (d ++ ⟨c.opening, []⟩)
  | function (.body c), .function f => .function { f with body := f.body ++ ⟨c.opening, []⟩ }
  | function (.delegate target _), .function f =>
    .function { f with delegation := some target }
  | typeDecl (.addInitializerBlock _), .typeDecl d =>
    .typeDecl { d with initializer := d.initializer ++ TypeDecl.initializerHead }
  | _, s => s

/-- The call writes nothing new before it reads its format. -/
def Call.readsFirst : Call → Draft → Bool
  | code c, .code _ | function (.body c), .function _ => c.opening.isEmpty
  | function (.delegate target _), .function f => f.delegation == some target
  | typeDecl (.addInitializerBlock _), .typeDecl _ => false
  | _, _ => true

theorem Call.residue_eq_iff (c : Call) (s : Draft) :
    c.residue s = s ↔ c.readsFirst s = true := by
  cases c with
  | code c =>
      cases s with
      | code d =>
          rw [residue, Draft.code.injEq, CodeBlock.append_eq_self_iff]
          exact List.isEmpty_iff.symm
      | _ => exact iff_of_true rfl rfl
  | function c =>
      cases s with
      | function f =>
          cases c with
          | body c =>
              rw [residue, Draft.function.injEq, FunDecl.withBody_eq_iff,
                CodeBlock.append_eq_self_iff]
              exact List.isEmpty_iff.symm
          | delegate target args =>
              rw [residue, Draft.function.injEq, FunDecl.withDelegation_eq_iff]
              exact eq_comm.trans beq_iff_eq.symm
          | _ => exact iff_of_true rfl rfl
      | _ => cases c <;> exact iff_of_true rfl rfl
  | typeDecl c =>
      cases s with
      | typeDecl d =>
          cases c with
          | addInitializerBlock block =>
              refine iff_of_false (fun h => ?_) Bool.false_ne_true
              have hi := congrArg TypeDecl.initializer (Draft.typeDecl.inj h)
              cases CodeBlock.append_eq_self_iff.1 hi
          | _ => exact iff_of_true rfl rfl
      | _ => cases c <;> exact iff_of_true rfl rfl
  | _ => exact iff_of_true rfl rfl

variable {unit : IndentUnit}

theorem Call.after_of_codeFormat {c : Call} (hc : c.takesCode = true) {s : Draft} {e : Error}
    (he : c.error unit s = some e) (hx : e.isCodeFormat = true) : c.after unit s = c.residue s := by
  cases c with
  | code c =>
      cases s with
      | code d => exact congrArg _ ((c.yields_opening unit d).of_failure he)
      | _ => cases he
  | annotationUse c =>
      cases s with
      | annotationUse a => exact congrArg _ ((c.takes unit False.elim a).of_failure he)
      | _ => cases he
  | parameter c =>
      cases s with
      | parameter p =>
          cases c with
          | defaultValue format args =>
              exact congrArg _ ((Parameter.Call.takes unit rfl False.elim p).of_failure he)
          | _ => cases hc
      | _ => cases he
  | function c =>
      cases s with
      | function f =>
          cases c with
          | addKdoc format args =>
              exact congrArg _ ((FunDecl.Call.takes unit rfl False.elim f).of_failure he)
          | delegate target args =>
              exact congrArg _ (FunDecl.outcome_delegate he hx)
          | body c =>
              exact congrArg _ ((FunDecl.yields_body unit c f).of_failure he)
          | _ => cases hc
      | _ => cases he
  | property c =>
      cases s with
      | property p =>
          cases c with
          | addKdoc format args | initializer format args | delegate format args =>
              exact congrArg _ ((PropertyDecl.Call.takes unit rfl False.elim p).of_failure he)
          | _ => cases hc
      | _ => cases he
  | typeDecl c =>
      cases s with
      | typeDecl d =>
          cases c with
          | addKdoc format args | addSuperclassArg format args =>
              exact congrArg _ ((TypeDecl.Call.takes unit rfl False.elim d).of_failure he)
          | addInitializerBlock block =>
              exact congrArg _ (TypeDecl.outcome_addInitializerBlock he hx)
          | _ => cases hc
      | _ => cases he

/-- A call that fails at its format leaves what it has written before, so it leaves the draft as it
was just when that is nothing new. -/
theorem format_fault_residue {c : Call} {s : Draft} {e : Error} (hc : c.takesCode = true)
    (he : c.error unit s = some e) (hx : e.isCodeFormat = true) :
    c.after unit s = c.residue s ∧ (c.after unit s = s ↔ c.readsFirst s = true) := by
  have ha := Call.after_of_codeFormat hc he hx
  refine ⟨ha, ?_⟩
  rw [ha]
  exact c.residue_eq_iff s

theorem quoted_percent : Text.quoted "%" = "'%'" := by decide +kernel

theorem format_fault_residue_delegation :
    let f := FunDecl.plain FunDecl.constructorName
    let c := Call.function (.delegate .toThis [.str "%"])
    c.error (.ok "  ") (.function f) = some (.codeFormat .dangling (some "'%'")) ∧
      c.after (.ok "  ") (.function f) = .function { f with delegation := some .toThis } ∧
      (c.after (.ok "  ") (.function f) = .function f ↔ false = true) := by
  intro f c
  have he : c.error (.ok "  ") (.function f) = some (.codeFormat .dangling (some "'%'")) := by
    rw [← quoted_percent]
    rfl
  exact ⟨he, format_fault_residue rfl he rfl⟩

/-- A statement with a malformed format stays open. Added again with a right one, it is a statement
inside a statement, which cannot be written. -/
theorem statement_left_open :
    let c := Call.code (.addStatement (.str "%") [])
    let s := c.after (.ok "  ") (.code .empty)
    let d := (Call.code (.addStatement (.str "x()") [])).after (.ok "  ") s
    let left : List Part :=
      [.openStatement, .openStatement, .text "x()", .text "\n", .closeStatement]
    c.error (.ok "  ") (.code .empty) = some (.codeFormat .dangling (some "'%'")) ∧
      s ≠ .code .empty ∧ d = .code ⟨left, []⟩ ∧
      CodeBlock.text (.ok "  ") ⟨left, []⟩ = .error (.codeFormat .statementTwice none) := by
  intro c s d left
  have hs : s = .code ⟨[.openStatement], []⟩ := rfl
  refine ⟨?_, ?_, rfl, ?_⟩
  · rw [← quoted_percent]
    rfl
  · rw [hs]
    intro h
    cases h
  · rfl

end Draft

end KotlinDecl
