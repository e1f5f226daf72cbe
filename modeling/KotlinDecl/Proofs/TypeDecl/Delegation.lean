import KotlinDecl.Proofs.TypeDecl.Facets

namespace KotlinDecl.TypeDecl

open Edit

open Relation (ReflTransGen)

variable {unit : IndentUnit} {f : Facet} {d e : TypeDecl}

/-- The facet is all that may differ. -/
def Alters (f : Facet) (d e : TypeDecl) : Prop := ∃ x, e = f.put x d

theorem alters_of_steps (h : ReflTransGen (Alters f) d e) : Alters f d e := by
  induction h with
  | refl => exact ⟨f.get d, (f.put_get d).symm⟩
  | tail _ hs ih =>
      obtain ⟨x, rfl⟩ := ih
      obtain ⟨y, rfl⟩ := hs
      exact ⟨y, f.put_put y x d⟩

theorem Concerns.follows {a : Edit TypeDecl Unit} {R : TypeDecl → TypeDecl → Prop}
    (h : Concerns f a) (ht : a.Takes R) : a.Follows (Alters f) := by
  intro d
  unfold Yields
  split
  · next t ha =>
      obtain ⟨act, hact⟩ := h.eq_put
      exact .single ⟨_, hact d t ha⟩
  · next ha => rw [ht.eq_of_error ha]

theorem follows_on (f : Facet) (a : Edit f.Content Unit) :
    (on f.get f.put a).Follows (Alters f) := by
  intro d
  apply yields_on
  unfold Yields
  split
  · next x _ => exact .single ⟨x, rfl⟩
  · next x _ => exact .single ⟨x, rfl⟩

theorem Call.follows_of_isWhole (unit : IndentUnit) (call : Call) (hc : call.isWhole = true) :
    (call.apply unit).Follows (Alters call.facet) :=
  (call.concerns unit).follows (Call.takes unit hc fun h : False => h.elim)

theorem Call.eq_of_error {c : Call} (hc : c.isWhole = true) {x : Error}
    (h : c.apply unit d = .error x e) : e = d := by
  have ht : (c.apply unit).Takes (Step unit False) := Call.takes unit hc False.elim
  exact ht.eq_of_error h

/-- A call that fails has changed its facet at most, like one that succeeds. -/
theorem Call.follows_facet (unit : IndentUnit) (call : Call) :
    (call.apply unit).Follows (Alters call.facet) := by
  cases call with
  | addAnnotations vs =>
      exact follows_require_bind fun _ _ => follows_forEach fun v _ =>
        Call.follows_of_isWhole unit (.annotate v) rfl
  | addModifiers vs =>
      exact fun d => yields_checkNotAnonymous_bind .refl fun _ => follows_on .modifiers _ d
  | addTypeVariables vs =>
      exact follows_require_bind fun _ _ => follows_forEach fun v _ =>
        Call.follows_of_isWhole unit (.addTypeVariable v) rfl
  | addSuperinterfaces vs =>
      exact follows_require_bind fun _ _ => follows_forEach fun v _ =>
        Call.follows_of_isWhole unit (.addSuperinterface v .null) rfl
  | addProperties vs =>
      exact follows_require_bind fun _ _ => follows_forEach fun v _ =>
        Call.follows_of_isWhole unit (.addProperty v .null []) rfl
  | addInitializerBlock block =>
      intro d
      refine yields_require_bind .refl fun _ => yields_bind (yields_get ?_)
      refine yields_bind (yields_require .refl fun k _ => ?_)
      exact yields_unless ((refuses_refuse _ _).bind _) .refl fun _ => follows_on .initializer _ d
  | addFunctions vs =>
      exact follows_require_bind fun _ _ => follows_forEach fun v _ =>
        Call.follows_of_isWhole unit (.addFunction v) rfl
  | addTypes vs =>
      exact follows_require_bind fun _ _ => follows_forEach fun v _ =>
        Call.follows_of_isWhole unit (.addType v) rfl
  | _ => exact Call.follows_of_isWhole unit _ rfl

def Call.after (unit : IndentUnit) (d : TypeDecl) (call : Call) : TypeDecl :=
  ((call.apply unit).outcome d).1

def after (unit : IndentUnit) (d : TypeDecl) (calls : List Call) : TypeDecl :=
  calls.foldl (Call.after unit) d

theorem Call.get_after (unit : IndentUnit) (call : Call) (d : TypeDecl) (hf : f ≠ call.facet) :
    f.get (call.after unit d) = f.get d := by
  obtain ⟨x, hx⟩ := alters_of_steps ((call.follows_facet unit).outcome d)
  rw [Call.after, hx, Facet.get_put_of_ne hf]

theorem setPrimaryConstructor_ok {v : Value} (h : setPrimaryConstructor unit v d = .ok () e) :
    ∃ o, asConstructor v = .ok o ∧ e = { d with primaryConstructor := o } := by
  have hy : (setPrimaryConstructor unit v).Yields d (fun _ => True) fun _ t =>
      ∃ o, asConstructor v = .ok o ∧ t = { d with primaryConstructor := o } := by
    refine yields_require_bind trivial fun _ => yields_bind (yields_require trivial fun o ho => ?_)
    cases o with
    | none => exact yields_modify ⟨none, ho, rfl⟩
    | some c =>
        exact yields_unless ((refuses_refuse _ _).bind _) trivial fun _ =>
          yields_modify ⟨some c, ho, rfl⟩
  exact hy.of_ok h

def Call.constructor? (unit : IndentUnit) (d : TypeDecl) : Call → Option Value
  | primaryConstructor v =>
    match ((setPrimaryConstructor unit v).outcome d).2 with
    | none => some v
    | some _ => none
  | _ => none

def constructorsSet (unit : IndentUnit) (d : TypeDecl) : List Call → List Value
  | [] => []
  | c :: calls => (c.constructor? unit d).toList ++ constructorsSet unit (c.after unit d) calls

def givenConstructor (v : Value) : Option FunDecl := (asConstructor v).toOption.join

theorem Call.primaryConstructor_after (call : Call) (d : TypeDecl) :
    (call.after unit d).primaryConstructor =
      ((call.constructor? unit d).map givenConstructor).getD d.primaryConstructor := by
  by_cases hf : Facet.primaryConstructor = call.facet
  · cases call with
    | primaryConstructor v =>
        cases ho : setPrimaryConstructor unit v d with
        | ok _ t =>
            obtain ⟨o, hv, rfl⟩ := setPrimaryConstructor_ok ho
            have hout := outcome_of_ok ho
            simp [Call.after, Call.apply, Call.constructor?, givenConstructor, hout, hv,
              Except.toOption]
        | error x t =>
            obtain rfl := Call.eq_of_error (c := .primaryConstructor v) rfl ho
            simp [Call.after, Call.apply, Call.constructor?, outcome_of_error ho]
    | _ => cases hf
  · have hget := call.get_after unit d hf
    cases call with
    | primaryConstructor v => exact absurd rfl hf
    | _ => exact hget

theorem primaryConstructor_after (calls : List Call) (d : TypeDecl) :
    (after unit d calls).primaryConstructor =
      ((constructorsSet unit d calls).getLast?.map givenConstructor).getD d.primaryConstructor := by
  induction calls generalizing d with
  | nil => rfl
  | cons c calls ih =>
      have hrest := ih (c.after unit d)
      rw [Call.primaryConstructor_after] at hrest
      rw [after, List.foldl_cons, ← after, hrest, constructorsSet, List.getLast?_append]
      cases (constructorsSet unit (c.after unit d) calls).getLast? with
      | some v => rfl
      | none => cases c.constructor? unit d <;> rfl

def parameterReference (name : String) : CodeBlock := ⟨[.argument .name], [.str name]⟩

/-- The interface is implemented by what the parameter `name` refers to, under the entry that it is
found by. -/
def DelegatesTo (unit : IndentUnit) (d : TypeDecl) (type : Value) (name : String) : Prop :=
  ∃ s ∈ d.superinterfaces,
    (s.type = type ∨ (type.key unit).finds (s.type.key unit) = .ok true) ∧
      s.delegate = some (parameterReference name)

/-- A delegate is given where there was none, so entries that have one stay as they are. -/
theorem mem_of_putSuperinterface {type : Value} {c : CodeBlock} {ss ss' : List Superinterface}
    (hn : presentDelegate unit type ss = .ok none)
    (h : putSuperinterface unit ss ⟨type, some c⟩ = .ok ss') {s : Superinterface} (hs : s ∈ ss)
    (hd : s.delegate.isSome = true) : s ∈ ss' := by
  obtain ⟨i, hi, h⟩ := ok_of_bind h
  rw [presentDelegate, hi] at hn
  cases i with
  | none =>
      cases h
      exact List.mem_append_left _ hs
  | some n =>
      cases h
      obtain ⟨m, hm⟩ := List.mem_iff_getElem?.1 hs
      have hne : n ≠ m := by
        rintro rfl
        have hnone : (ss[n]?).bind (·.delegate) = none := Except.ok.inj hn
        rw [hm, Option.bind_some] at hnone
        rw [hnone] at hd
        cases hd
      refine List.mem_iff_getElem?.2 ⟨m, ?_⟩
      simp [hne, hm]

theorem DelegatesTo.step {typed : Prop} {type : Value} {name : String}
    (hs : Step unit typed d e) (h : d.DelegatesTo unit type name) :
    e.DelegatesTo unit type name := by
  obtain ⟨s, hmem, htype, hdelegate⟩ := h
  have hsome : s.delegate.isSome = true := by rw [hdelegate]; rfl
  cases hs with
  | superinterface v _ _ => exact ⟨s, List.mem_append_left _ hmem, htype, hdelegate⟩
  | delegate t c ss _ _ _ hn hput _ =>
      exact ⟨s, mem_of_putSuperinterface hn hput hmem hsome, htype, hdelegate⟩
  | _ => exact ⟨s, hmem, htype, hdelegate⟩

theorem DelegatesTo.after {type : Value} {name : String} (h : d.DelegatesTo unit type name)
    (calls : List Call) : (after unit d calls).DelegatesTo unit type name := by
  induction calls generalizing d with
  | nil => exact h
  | cons c calls ih =>
      have hsteps := (c.follows unit (fun hf : False => hf.elim)).outcome d
      exact ih (keeps_of_steps (P := (DelegatesTo unit · type name)) hsteps DelegatesTo.step h)

theorem delegatesTo_of_putSuperinterface {type : Value} {name : String}
    {ss : List Superinterface}
    (h : putSuperinterface unit d.superinterfaces ⟨type, some (parameterReference name)⟩ =
      .ok ss) : DelegatesTo unit { d with superinterfaces := ss } type name := by
  rcases putSuperinterface_ok h with ⟨_, rfl⟩ | ⟨n, y, hy, hf, rfl⟩
  · exact ⟨_, List.mem_append_right _ List.mem_cons_self, .inl rfl, rfl⟩
  · refine ⟨{ y with delegate := some (parameterReference name) }, ?_, .inr hf, rfl⟩
    refine List.mem_iff_getElem?.2 ⟨n, ?_⟩
    simp [hy]

theorem delegateSuperinterface_ok {type : Value} {c : CodeBlock}
    (h : delegateSuperinterface unit type c d = .ok () e) :
    presentDelegate unit type d.superinterfaces = .ok none ∧
      ∃ ss, putSuperinterface unit d.superinterfaces ⟨type, some c⟩ = .ok ss ∧
        e = { d with superinterfaces := ss } := by
  have hy : (delegateSuperinterface unit type c).Yields d (fun _ => True) fun _ t =>
      presentDelegate unit type d.superinterfaces = .ok none ∧
        ∃ ss, putSuperinterface unit d.superinterfaces ⟨type, some c⟩ = .ok ss ∧
          t = { d with superinterfaces := ss } := by
    refine yields_require_bind trivial fun _ => yields_bind (yields_get ?_)
    refine yields_unless ?_ trivial fun _ => yields_bind (yields_require trivial fun t _ => ?_)
    · exact refuses_require_bind fun _ => refuses_require_bind fun _ => (refuses_refuse _ _).bind _
    refine yields_unless ?_ trivial fun _ => yields_bind (yields_require trivial fun o ho => ?_)
    · exact refuses_require_bind fun _ => (refuses_refuse _ _).bind _
    cases o with
    | some present =>
        refine Refuses.yields ?_ trivial
        exact refuses_require_bind fun _ => refuses_require_bind fun _ =>
          refuses_require_bind fun _ => (refuses_refuse _ _).bind _
    | none =>
        exact yields_bind (yields_require trivial fun ss hs => yields_modify ⟨ho, ss, hs, rfl⟩)
  exact hy.of_ok h

def DeclaresParameter (o : Option FunDecl) (name : String) : Prop :=
  ∃ f ∈ o, ∃ p ∈ f.parameters, p.name = name

/-- The call succeeds only if the constructor of the moment declares the parameter, and then it adds
the interface with a reference to it. -/
theorem addSuperinterface_of_byParameter {type parameter : Value}
    (h : addSuperinterfaceByParameter unit type parameter d = .ok () e) :
    ∃ name, parameter = .str name ∧ DeclaresParameter d.primaryConstructor name ∧
      addSuperinterface unit type (.code (parameterReference name)) d = .ok () e := by
  rw [addSuperinterfaceByParameter, get_bind] at h
  cases hc : d.primaryConstructor with
  | none =>
      obtain ⟨x, hx⟩ := refuses_refuse unit .delegateWithoutConstructor d
      simp only [hc, hx] at h
      cases h
  | some c =>
      simp only [hc] at h
      cases hn : parameterNamed c parameter with
      | none =>
          obtain ⟨x, hx⟩ := refuses_require_bind (r := parameter.text unit) (fun shown =>
            refuses_refuse unit (.noSuchParameter shown (ownerText d.name))) d
          simp only [hn, hx] at h
          cases h
      | some name =>
          simp only [hn] at h
          cases parameter with
          | str s =>
              obtain ⟨p, hp, rfl⟩ := Option.map_eq_some_iff.1 hn
              have hs : p.name = s := parameterNamed_str hn
              exact ⟨p.name, by rw [hs], ⟨c, rfl, p, List.mem_of_find?_eq_some hp, rfl⟩, h⟩
          | _ => cases hn

theorem addSuperinterfaceByParameter_ok {type parameter : Value}
    (h : addSuperinterfaceByParameter unit type parameter d = .ok () e) :
    ∃ name, parameter = .str name ∧ DeclaresParameter d.primaryConstructor name ∧
      e.DelegatesTo unit type name := by
  obtain ⟨name, rfl, hdeclared, h⟩ := addSuperinterface_of_byParameter h
  obtain ⟨_, ss, hput, rfl⟩ := delegateSuperinterface_ok h
  exact ⟨name, rfl, hdeclared, delegatesTo_of_putSuperinterface hput⟩

theorem primaryConstructor_of_addSuperinterfaceByParameter {type parameter : Value}
    (h : addSuperinterfaceByParameter unit type parameter d = .ok () e) :
    e.primaryConstructor = d.primaryConstructor := by
  have hne : Facet.primaryConstructor ≠ .superinterfaces := by decide
  obtain ⟨act, hact⟩ := ((Call.addSuperinterfaceByParameter type parameter).concerns unit).eq_put
  rw [hact d e h]
  exact Facet.get_put_of_ne hne _ d

/-- An interface that was once delegated to a parameter is so when the declaration is finished. The
parameter is still declared exactly if no constructor was set in between, or the last one that was
declares it too. -/
theorem delegate_declared_iff {type parameter : Value} {calls : List Call} {d₁ : TypeDecl}
    (hcall : (Call.addSuperinterfaceByParameter type parameter).apply unit d = .ok () d₁)
    (hbuild : (after unit d₁ calls).build unit = .ok e) :
    ∃ name, parameter = .str name ∧ e.DelegatesTo unit type name ∧
      (DeclaresParameter e.primaryConstructor name ↔
        ∀ v ∈ (constructorsSet unit d₁ calls).getLast?,
          DeclaresParameter (givenConstructor v) name) := by
  obtain ⟨name, rfl, hdeclared, hdelegate⟩ := addSuperinterfaceByParameter_ok hcall
  refine ⟨name, rfl, ?_⟩
  rw [(build_ok hbuild).1, primaryConstructor_after,
    primaryConstructor_of_addSuperinterfaceByParameter hcall]
  refine ⟨hdelegate.after calls, ?_⟩
  cases (constructorsSet unit d₁ calls).getLast? with
  | none => exact iff_of_true hdeclared nofun
  | some v => simp

/-- The interface is delegated to `x`; the constructor is set twice more, the second time in vain,
and declares `x` behind another parameter. -/
theorem delegate_declared_iff_reset :
    let unit : IndentUnit := .ok "  "
    let x : Parameter := .plain "x" (.type .unitType)
    let y : Parameter := .plain "y" (.type .unitType)
    let init (ps : List Parameter) : Value :=
      .decl none (.function { FunDecl.plain FunDecl.constructorName with parameters := ps })
    let type : Value := .type (.named (some "") ["I"] false)
    let d := { plain (.kind .classKind) (some "A") none with
      primaryConstructor := givenConstructor (init [x]) }
    let d₁ := { d with superinterfaces := [⟨type, some (parameterReference "x")⟩] }
    let calls : List Call := [.primaryConstructor (init [y, x]), .primaryConstructor (.str "x")]
    let e := { d₁ with primaryConstructor := givenConstructor (init [y, x]) }
    (Call.addSuperinterfaceByParameter type (.str "x")).apply unit d = .ok () d₁ ∧
      (after unit d₁ calls).build unit = .ok e ∧ e.DelegatesTo unit type "x" ∧
      DeclaresParameter e.primaryConstructor "x" := by
  intro unit x y init type d d₁ calls e
  have hcall : (Call.addSuperinterfaceByParameter type (.str "x")).apply unit d = .ok () d₁ := rfl
  have hbuild : (after unit d₁ calls).build unit = .ok e := rfl
  obtain ⟨name, hname, hdelegate, hiff⟩ := delegate_declared_iff hcall hbuild
  cases hname
  refine ⟨hcall, hbuild, hdelegate, hiff.2 ?_⟩
  rintro v ⟨⟩
  exact ⟨_, rfl, x, by simp, rfl⟩

/-- The constructor goes and the delegate stays. -/
theorem delegate_outlives_constructor :
    let unit : IndentUnit := .ok "  "
    let x : Parameter := .plain "x" (.type (.named (some "kotlin") ["Int"] false))
    let init : Value :=
      .decl none (.function { FunDecl.plain FunDecl.constructorName with parameters := [x] })
    let type : Value := .type (.named (some "") ["I"] false)
    let calls : List Call := [.primaryConstructor init,
      .addSuperinterfaceByParameter type (.str "x"), .primaryConstructor .null]
    let d := plain (.kind .classKind) (some "A") none
    let e := { d with superinterfaces := [⟨type, some (parameterReference "x")⟩] }
    startNamed unit .classKind (.str "A") = .ok d ∧
      forEach (Call.apply unit) calls d = .ok () e ∧ e.build unit = .ok e ∧
      e.DelegatesTo unit type "x" ∧ ¬DeclaresParameter e.primaryConstructor "x" ∧
      (((e.pieces unit).layout none).run (.fresh "  ")).text = "class A : I by x\n".toList := by
  refine ⟨rfl, rfl, rfl, ⟨_, List.mem_cons_self, .inl rfl, rfl⟩, ?_, by decide⟩
  rintro ⟨f, hf, _⟩
  cases hf

end KotlinDecl.TypeDecl
