import KotlinDecl.Proofs.Layout.Laws
import KotlinDecl.Proofs.Steps

namespace KotlinDecl

open Edit

open Layout (text annotated modifiers orFail run_append_assoc run_append_congr)

def PropertyDecl.keyword (p : PropertyDecl) : String :=
  if p.mutable.isTrue then "var " else "val "

namespace PropertyPieces

def front (p : PropertyPieces) (implied : List Modifier) (inline : Argument) : Layout :=
  Layout.when (!inline.isTrue) p.kdoc ++ annotated inline p.annotations ++
    modifiers p.decl.modifiers implied

def back (p : PropertyPieces) (implied : Argument) (withInitializer : Bool) (inline : Argument) :
    Layout :=
  p.type.between "%N: %T" (p.decl.name ++ ": ") "" ++
    Layout.when withInitializer p.initializerLayout ++
    Layout.when (!inline.isTrue)
      (text "\n" ++ accessor implied p.getter ++ accessor implied p.setter)

theorem run_layout (p : PropertyPieces) {implied : Argument} {ms : List Modifier}
    (h : implied.implied = .ok ms) (withInitializer : Bool) (inline : Argument) :
    (p.layout implied withInitializer inline).run =
      (p.front ms inline ++ text p.decl.keyword ++ p.back implied withInitializer inline).run := by
  have hcore : orFail (implied.implied.map p.core) = p.core ms := by
    rw [h]
    rfl
  have hcut (k m t b i n : Layout) :
      (k ++ (m ++ t ++ b) ++ i ++ n).run = (k ++ m ++ t ++ (b ++ i ++ n)).run := by
    calc (k ++ (m ++ t ++ b) ++ i ++ n).run
        = (k ++ (m ++ t ++ b) ++ (i ++ n)).run := run_append_assoc _ _ _
      _ = (k ++ (m ++ t ++ b ++ (i ++ n))).run := run_append_assoc _ _ _
      _ = (k ++ (m ++ t ++ (b ++ i ++ n))).run :=
          run_append_congr rfl ((run_append_assoc _ _ _).trans
            (run_append_congr rfl (run_append_assoc _ _ _).symm))
      _ = (k ++ (m ++ t) ++ (b ++ i ++ n)).run := (run_append_assoc _ _ _).symm
      _ = (k ++ m ++ t ++ (b ++ i ++ n)).run :=
          run_append_congr (run_append_assoc _ _ _).symm rfl
  rw [layout, hcore]
  exact hcut _ _ _ _ _ _

theorem implied_of_run {p : PropertyPieces} {implied inline : Argument} {withInitializer : Bool}
    {w : Writer} (h : ((p.layout implied withInitializer inline).run w).error = none) :
    ∃ ms, implied.implied = .ok ms := by
  cases hi : implied.implied with
  | ok ms => exact ⟨ms, rfl⟩
  | error e =>
      -- The modifiers are the third of five pieces.
      obtain ⟨h, _⟩ := Written.error_of_andThen h
      obtain ⟨h, _⟩ := Written.error_of_andThen h
      obtain ⟨_, h⟩ := Written.error_of_andThen h
      rw [hi] at h
      cases h

end PropertyPieces

namespace PropertyDecl

variable {unit : IndentUnit} {p q : PropertyDecl}

/-- Wherever the property is written to its end, `word` stands between its modifiers and its
name. -/
def WrittenWith (unit : IndentUnit) (p : PropertyDecl) (word : String) : Prop :=
  ∀ (implied : Argument) (withInitializer : Bool) (inline : Argument) (w : Writer),
    (((p.pieces unit).layout implied withInitializer inline).run w).error = none →
      ∃ ms, implied.implied = .ok ms ∧
        ((p.pieces unit).layout implied withInitializer inline).run w =
          ((p.pieces unit).front ms inline ++ text word ++
            (p.pieces unit).back implied withInitializer inline).run w

theorem writtenWith_keyword (unit : IndentUnit) (p : PropertyDecl) :
    p.WrittenWith unit p.keyword := by
  intro implied withInitializer inline w h
  obtain ⟨ms, hms⟩ := PropertyPieces.implied_of_run h
  have hdecl : (p.pieces unit).decl = p := by
    cases p
    rfl
  have hrun := (p.pieces unit).run_layout hms withInitializer inline
  rw [hdecl] at hrun
  exact ⟨ms, hms, congrFun hrun w⟩

def Call.after (unit : IndentUnit) (p : PropertyDecl) (call : Call) : PropertyDecl :=
  ((call.apply unit).outcome p).1

def after (unit : IndentUnit) (p : PropertyDecl) (calls : List Call) : PropertyDecl :=
  calls.foldl (Call.after unit) p

theorem after_append (unit : IndentUnit) (p : PropertyDecl) (cs ds : List Call) :
    after unit p (cs ++ ds) = after unit (after unit p cs) ds :=
  List.foldl_append

/-- What setters and initializers are about; most calls leave it alone. -/
def core (p : PropertyDecl) : Value × Option Value × Option CodeBlock × Bool :=
  (p.mutable, p.setter, p.initializer, p.delegated)

theorem follows_on {τ : Type} {get : PropertyDecl → τ} {set : τ → PropertyDecl → PropertyDecl}
    (h : ∀ t p, (set t p).core = p.core) (e : Edit τ Unit) :
    (on get set e).Follows fun p q => q.core = p.core := by
  intro p
  apply yields_on
  unfold Yields
  split
  · next t _ => exact .single (h t p)
  · next t _ => exact .single (h t p)

theorem core_of_follows {e : Edit PropertyDecl Unit}
    (h : e.Follows fun p q => q.core = p.core) (p : PropertyDecl) :
    (e.outcome p).1.core = p.core :=
  keeps_of_steps (P := fun q => q.core = p.core) (h.outcome p) (fun hs hp => hs.trans hp) rfl

theorem setInitializer_of_some (unit : IndentUnit) {c : CodeBlock} (h : p.initializer = some c)
    (delegated : Bool) (format : Value) (args : List Value) :
    ∃ e, setInitializer unit delegated format args p = .error e p := by
  refine ⟨.configuration .initializerTwice none, ?_⟩
  rw [setInitializer, get_bind, h]
  rfl

theorem setInitializer_of_none (unit : IndentUnit) (h : p.initializer = none) (delegated : Bool)
    (format : Value) (args : List Value) :
    setInitializer unit delegated format args p =
      match CodeBlock.ofFormatOrBlock unit format args with
      | .ok c => .ok () { p with initializer := some c, delegated := delegated }
      | .error e => .error e p := by
  rw [setInitializer, get_bind, h]
  cases CodeBlock.ofFormatOrBlock unit format args <;> rfl

theorem setSetter_cases (v : Value) (p : PropertyDecl) :
    (∃ e, setSetter v p = .error e p) ∨
      p.mutable.isTrue = true ∧ setSetter v p = .ok () { p with setter := some v } := by
  cases hc : checkAccessor FunDecl.setterName .notSetter v with
  | error e =>
      refine .inl ⟨e, ?_⟩
      rw [setSetter, hc]
      rfl
  | ok a =>
      have hname : setSetter v p = (do
          if !(← get).mutable.isTrue then throw (.configuration .setterOfConstant none)
          modify fun p => { p with setter := some v } : Edit PropertyDecl Unit) p := by
        rw [setSetter, hc]
        rfl
      rw [hname, get_bind]
      cases hm : p.mutable.isTrue with
      | false => exact .inl ⟨_, rfl⟩
      | true => exact .inr ⟨rfl, rfl⟩

def Call.mutability? : Call → Option Value
  | mutable v => some v
  | _ => none

def Call.setter? (unit : IndentUnit) (p : PropertyDecl) : Call → Option Value
  | setter v =>
    match (Call.setter v).apply unit p with
    | .ok .. => some v
    | .error .. => none
  | _ => none

def initialized? (unit : IndentUnit) (p : PropertyDecl) (delegated : Bool) (format : Value)
    (args : List Value) : Option (CodeBlock × Bool) :=
  match setInitializer unit delegated format args p with
  | .ok .. => (CodeBlock.ofFormatOrBlock unit format args).toOption.map (·, delegated)
  | .error .. => none

def Call.initializer? (unit : IndentUnit) (p : PropertyDecl) : Call → Option (CodeBlock × Bool)
  | initializer format args => initialized? unit p false format args
  | delegate format args => initialized? unit p true format args
  | _ => none

theorem initialized_of_some (h : p.initializer.isSome = true) (delegated : Bool) (format : Value)
    (args : List Value) : initialized? unit p delegated format args = none := by
  obtain ⟨c, hc⟩ := Option.isSome_iff_exists.1 h
  obtain ⟨e, he⟩ := setInitializer_of_some unit hc delegated format args
  rw [initialized?, he]

theorem core_of_setInitializer (delegated : Bool) (format : Value) (args : List Value)
    (p : PropertyDecl) :
    ((setInitializer unit delegated format args).outcome p).1.core =
      let given := initialized? unit p delegated format args
      (p.mutable, p.setter, (given.map (·.1)).or p.initializer,
        (given.map (·.2)).getD p.delegated) := by
  cases hp : p.initializer with
  | some c =>
      obtain ⟨e, he⟩ := setInitializer_of_some unit hp delegated format args
      rw [outcome_of_error he, initialized?, he]
      simp [core, hp]
  | none =>
      have hset := setInitializer_of_none unit hp delegated format args
      cases hc : CodeBlock.ofFormatOrBlock unit format args with
      | ok c =>
          rw [hc] at hset
          rw [outcome_of_ok hset, initialized?, hset, hc]
          rfl
      | error e =>
          rw [hc] at hset
          rw [outcome_of_error hset, initialized?, hset]
          simp [core, hp]

theorem core_of_setSetter (v : Value) (p : PropertyDecl) :
    ((setSetter v).outcome p).1.core =
      (p.mutable, ((Call.setter v).setter? unit p).or p.setter, p.initializer, p.delegated) := by
  rcases setSetter_cases v p with ⟨e, he⟩ | ⟨_, hok⟩
  · rw [outcome_of_error he, Call.setter?, Call.apply, he]
    rfl
  · rw [outcome_of_ok hok, Call.setter?, Call.apply, hok]
    rfl

theorem Call.core_after (call : Call) (p : PropertyDecl) :
    (call.after unit p).core =
      (call.mutability?.getD p.mutable, (call.setter? unit p).or p.setter,
        ((call.initializer? unit p).map (·.1)).or p.initializer,
        ((call.initializer? unit p).map (·.2)).getD p.delegated) := by
  cases call with
  | mutable v => rfl
  | addKdoc format args =>
      refine core_of_follows (e := onKdoc (CodeBlock.add unit format args)) ?_ p
      apply follows_on
      exact fun _ _ => rfl
  | annotate v => rfl
  | addAnnotations vs =>
      refine core_of_follows (follows_require_bind fun _ _ => follows_forEach fun _ _ => ?_) p
      exact follows_modify fun _ => rfl
  | addModifiers vs =>
      refine core_of_follows (e := PropertyDecl.addModifiers unit vs) ?_ p
      apply follows_on
      exact fun _ _ => rfl
  | initializer format args => exact core_of_setInitializer false format args p
  | delegate format args => exact core_of_setInitializer true format args p
  | getter v =>
      refine core_of_follows (e := setGetter v) ?_ p
      exact follows_require_bind fun _ _ => follows_modify fun _ => rfl
  | setter v => exact core_of_setSetter v p

theorem Call.mutable_after (call : Call) (p : PropertyDecl) :
    (call.after unit p).mutable = call.mutability?.getD p.mutable :=
  congrArg Prod.fst (call.core_after p)

theorem Call.setter_after (call : Call) (p : PropertyDecl) :
    (call.after unit p).setter = (call.setter? unit p).or p.setter :=
  congrArg (·.2.1) (call.core_after p)

theorem Call.initializer_after (call : Call) (unit : IndentUnit) (p : PropertyDecl) :
    (call.after unit p).initializer =
        ((call.initializer? unit p).map (·.1)).or p.initializer ∧
      (call.after unit p).delegated =
        ((call.initializer? unit p).map (·.2)).getD p.delegated :=
  ⟨congrArg (·.2.2.1) (call.core_after p), congrArg (·.2.2.2) (call.core_after p)⟩

def mutabilities (calls : List Call) : List Value := calls.filterMap Call.mutability?

/-- The last call that is about it decides whether the property is mutable. -/
theorem mutable_after (calls : List Call) (p : PropertyDecl) :
    (after unit p calls).mutable = (mutabilities calls).getLast?.getD p.mutable := by
  induction calls generalizing p with
  | nil => rfl
  | cons c calls ih =>
      have hcons : mutabilities (c :: calls) = c.mutability?.toList ++ mutabilities calls := by
        rw [mutabilities, List.filterMap_cons]
        cases c.mutability? <;> rfl
      rw [after, List.foldl_cons, ← after, ih, Call.mutable_after, hcons, List.getLast?_append]
      cases (mutabilities calls).getLast? with
      | some v => rfl
      | none => cases c.mutability? <;> rfl

theorem Call.of_setter {call : Call} {v : Value} (h : call.setter? unit p = some v) :
    call = .setter v ∧ ∃ r, call.apply unit p = .ok () r := by
  cases call with
  | setter u =>
      simp only [Call.setter?] at h
      split at h
      · next r hr =>
          cases h
          exact ⟨rfl, r, hr⟩
      · cases h
  | _ => cases h

theorem exists_setter_call {calls : List Call} {v : Value}
    (h : (after unit p calls).setter = some v) :
    p.setter = some v ∨ ∃ before later r, calls = before ++ .setter v :: later ∧
      (Call.setter v).apply unit (after unit p before) = .ok () r := by
  induction calls generalizing p with
  | nil => exact .inl h
  | cons c calls ih =>
      rcases ih h with hc | ⟨before, later, r, rfl, hr⟩
      · rw [Call.setter_after] at hc
        cases hs : c.setter? unit p with
        | none =>
            rw [hs] at hc
            exact .inl hc
        | some u =>
            rw [hs] at hc
            cases hc
            obtain ⟨rfl, r, hr⟩ := Call.of_setter hs
            exact .inr ⟨[], calls, r, rfl, hr⟩
      · exact .inr ⟨c :: before, later, r, rfl, hr⟩

theorem mutable_after_setter {v : Value} {r : PropertyDecl}
    (h : (Call.setter v).apply unit p = .ok () r) (later : List Call) :
    (after unit p (.setter v :: later)).mutable.isTrue = true ↔
      ∀ m ∈ (mutabilities later).getLast?, m.isTrue = true := by
  -- The setter would have been refused otherwise.
  have hp : p.mutable.isTrue = true := by
    rcases setSetter_cases v p with ⟨e, he⟩ | ⟨hm, _⟩
    · rw [Call.apply, he] at h
      cases h
    · exact hm
  have hmutable : (after unit p (.setter v :: later)).mutable =
      (mutabilities later).getLast?.getD p.mutable := mutable_after (.setter v :: later) p
  rw [hmutable]
  cases (mutabilities later).getLast? with
  | none => exact iff_of_true hp nofun
  | some m => simp

def initializers (unit : IndentUnit) (p : PropertyDecl) : List Call → List (CodeBlock × Bool)
  | [] => []
  | c :: calls => (c.initializer? unit p).toList ++ initializers unit (c.after unit p) calls

theorem Call.initializer_of_some (unit : IndentUnit) (h : p.initializer.isSome = true)
    (call : Call) :
    call.initializer? unit p = none := by
  cases call with
  | initializer format args => exact initialized_of_some h false format args
  | delegate format args => exact initialized_of_some h true format args
  | _ => rfl

theorem initializers_of_some (unit : IndentUnit) (calls : List Call)
    (h : p.initializer.isSome = true) :
    initializers unit p calls = [] ∧ (after unit p calls).initializer = p.initializer ∧
      (after unit p calls).delegated = p.delegated := by
  induction calls generalizing p with
  | nil => exact ⟨rfl, rfl, rfl⟩
  | cons c calls ih =>
      have hnone := Call.initializer_of_some unit h c
      obtain ⟨hcode, hdelegated⟩ := c.initializer_after unit p
      rw [hnone] at hcode hdelegated
      have hcode : (c.after unit p).initializer = p.initializer := hcode
      obtain ⟨hrest, hcode', hdelegated'⟩ := ih (p := c.after unit p) (by rwa [hcode])
      refine ⟨?_, hcode'.trans hcode, hdelegated'.trans hdelegated⟩
      rw [initializers, hnone, hrest]
      rfl

/-- The property is initialized by the one call that succeeds, if there is one. -/
theorem initializers_of_none (unit : IndentUnit) (calls : List Call)
    (h : p.initializer = none) :
    (initializers unit p calls = [] ∧ (after unit p calls).initializer = none ∧
      (after unit p calls).delegated = p.delegated) ∨
    ∃ code delegated, initializers unit p calls = [(code, delegated)] ∧
      (after unit p calls).initializer = some code ∧
      (after unit p calls).delegated = delegated := by
  induction calls generalizing p with
  | nil => exact .inl ⟨rfl, h, rfl⟩
  | cons c calls ih =>
      obtain ⟨hcode, hdelegated⟩ := c.initializer_after unit p
      rw [initializers]
      cases hc : c.initializer? unit p with
      | none =>
          rw [hc] at hcode hdelegated
          have hcode : (c.after unit p).initializer = none := hcode.trans h
          have hrest := ih hcode
          rw [hdelegated] at hrest
          exact hrest
      | some given =>
          obtain ⟨code, delegated⟩ := given
          rw [hc] at hcode hdelegated
          have hsome : (c.after unit p).initializer.isSome = true := by
            rw [hcode]
            rfl
          obtain ⟨hrest, hcode', hdelegated'⟩ :=
            initializers_of_some unit calls hsome
          refine .inr ⟨code, delegated, ?_, hcode'.trans hcode, hdelegated'.trans hdelegated⟩
          rw [hrest]
          rfl

theorem core_of_ofName {name type : Value} {modifiers : List Value}
    (h : ofName unit name type modifiers = .ok p) : p.core = (.bool false, none, none, false) := by
  obtain ⟨q, hq, h⟩ := ok_of_bind h
  obtain ⟨s, _, rfl⟩ := start_ok hq
  have hmodifiers : (PropertyDecl.addModifiers unit modifiers).Follows
      fun p q => q.core = p.core := by
    apply follows_on
    exact fun _ _ => rfl
  have hcore := core_of_follows hmodifiers (plain s type)
  split at h
  · next hok =>
      cases h
      rw [outcome_of_ok hok] at hcore
      exact hcore
  · cases h

/-- A property with a setter is written as mutable exactly if no call behind the one that set the
setter is about mutability, or the last such call makes it mutable. It is initialized by the one
call that succeeds in doing so, in the way that this call says. -/
theorem setter_keyword_iff {unit : IndentUnit} {name type : Value} {modifiers : List Value}
    {start : PropertyDecl} (hstart : ofName unit name type modifiers = .ok start)
    (calls : List Call) :
    let p := after unit start calls
    p.WrittenWith unit p.keyword ∧
      (∀ v, p.setter = some v → ∃ before later r, calls = before ++ .setter v :: later ∧
        (Call.setter v).apply unit (after unit start before) = .ok () r ∧
        (p.keyword = "var " ↔ ∀ m ∈ (mutabilities later).getLast?, m.isTrue = true)) ∧
      ((initializers unit start calls = [] ∧ p.initializer = none ∧ p.delegated = false) ∨
        ∃ code delegated, initializers unit start calls = [(code, delegated)] ∧
          p.initializer = some code ∧ p.delegated = delegated) := by
  intro p
  have hcore := core_of_ofName hstart
  have hsetter : start.setter = none := congrArg (·.2.1) hcore
  have hinitializer : start.initializer = none := congrArg (·.2.2.1) hcore
  have hdelegated : start.delegated = false := congrArg (·.2.2.2) hcore
  refine ⟨writtenWith_keyword unit p, fun v hv => ?_, ?_⟩
  · rcases exists_setter_call hv with h | ⟨before, later, r, rfl, hr⟩
    · rw [hsetter] at h
      cases h
    · have hkeyword : p.keyword = "var " ↔ p.mutable.isTrue = true := by
        unfold keyword
        split <;> simp_all
      refine ⟨before, later, r, rfl, hr, hkeyword.trans ?_⟩
      rw [← mutable_after_setter hr later, ← after_append]
  · have h := initializers_of_none unit calls hinitializer
    rwa [hdelegated] at h

/-- The setter is refused at first, and so are two of the initializers: one cannot be read, and one
comes too late. -/
theorem setter_keyword_iff_delegated :
    let unit : IndentUnit := .ok "  "
    let set : Value := .decl none (.function (.plain FunDecl.setterName))
    let calls : List Call := [.setter set, .mutable (.int 1), .setter set,
      .initializer (.str "%") [], .delegate (.str "lazy") [], .initializer (.str "1") []]
    let start := plain "x" (.type .unitType)
    let p := after unit start calls
    ofName unit (.str "x") (.type .unitType) [] = .ok start ∧ p.setter = some set ∧
      (∃ before later r, calls = before ++ .setter set :: later ∧
        (Call.setter set).apply unit (after unit start before) = .ok () r ∧
        ∀ m ∈ (mutabilities later).getLast?, m.isTrue = true) ∧
      initializers unit start calls = [(⟨[.text "lazy"], []⟩, true)] ∧
      p.initializer = some ⟨[.text "lazy"], []⟩ ∧ p.delegated = true := by
  intro unit set calls start p
  have hstart : ofName unit (.str "x") (.type .unitType) [] = .ok start := rfl
  have hset : p.setter = some set := rfl
  have hvar : p.keyword = "var " := rfl
  obtain ⟨_, hsetter, hinitializer⟩ := setter_keyword_iff hstart calls
  obtain ⟨before, later, r, hcalls, hr, hiff⟩ := hsetter set hset
  refine ⟨hstart, hset, ⟨before, later, r, hcalls, hr, hiff.1 hvar⟩, ?_⟩
  rcases hinitializer with ⟨hnone, _⟩ | ⟨code, delegated, hone, hcode, hdelegated⟩
  · cases hnone
  · cases hone
    exact ⟨rfl, hcode, hdelegated⟩

/-- The property is made constant when it has its setter. -/
theorem constant_with_setter :
    let unit : IndentUnit := .ok "  "
    let type : Value := .type (.named (some "kotlin") ["Int"] false)
    let set : Value := .decl none (.function (.plain FunDecl.setterName))
    let calls : List Call := [.mutable (.bool true), .setter set, .mutable (.bool false)]
    let start := plain "x" type
    let p := { start with setter := some set }
    ofName unit (.str "x") type [] = .ok start ∧
      forEach (Call.apply unit) calls start = .ok () p ∧ p.setter = some set ∧
      p.keyword = "val " ∧
      ((p.pieces unit).whole.run (.fresh "  ")).text =
        "val x: Int\n  set() \x7b\n  \x7d\n".toList :=
  ⟨rfl, rfl, rfl, rfl, by decide⟩

end PropertyDecl

end KotlinDecl
