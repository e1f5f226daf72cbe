import KotlinDecl.Proofs.Folding
import KotlinDecl.Proofs.Layout.Discipline
import KotlinDecl.Proofs.Writer

namespace KotlinDecl

/-- The computation fails with an error that has `P`, or gives a result that has `Q`. -/
def Ends {α : Type} (P : Error → Prop) (Q : α → Prop) : Except Error α → Prop
  | .ok a => Q a
  | .error e => P e

abbrev FailsIn {α : Type} (P : Error → Prop) (x : Except Error α) : Prop :=
  Ends P (fun _ => True) x

section

variable {α β : Type} {P : Error → Prop} {Q : α → Prop} {R : β → Prop} {x : Except Error α}

theorem Ends.bind {k : α → Except Error β} (hx : Ends P Q x) (hk : ∀ a, Q a → Ends P R (k a)) :
    Ends P R (x >>= k) := by
  cases x with
  | ok a => exact hk a hx
  | error e => exact hx

theorem Ends.map {f : α → β} (hx : Ends P Q x) (hf : ∀ a, Q a → R (f a)) : Ends P R (x.map f) := by
  cases x with
  | ok a => exact hf a hx
  | error e => exact hx

theorem Ends.mapM {f : α → Except Error β} {as : List α} (h : ∀ a ∈ as, Ends P R (f a)) :
    Ends P (fun bs => ∀ b ∈ bs, R b) (as.mapM f) := by
  induction as with
  | nil => exact List.forall_mem_nil R
  | cons a as ih =>
      obtain ⟨ha, has⟩ := List.forall_mem_cons.1 h
      rw [List.mapM_cons]
      exact ha.bind fun b hb => (ih has).bind fun bs hbs => List.forall_mem_cons.2 ⟨hb, hbs⟩

theorem Ends.failsIn (hx : Ends P Q x) : FailsIn P x := by
  cases x with
  | ok a => trivial
  | error e => exact hx

@[simp] theorem failsIn_ok (a : α) : FailsIn P (.ok a) := trivial

theorem FailsIn.of_error {e : Error} (h : FailsIn P x) (he : x = .error e) : P e := by
  rwa [he] at h

theorem FailsIn.bind {k : α → Except Error β} (hx : FailsIn P x) (hk : ∀ a, Ends P R (k a)) :
    Ends P R (x >>= k) :=
  Ends.bind hx fun a _ => hk a

theorem FailsIn.mapM {f : α → Except Error β} {as : List α} (h : ∀ a ∈ as, FailsIn P (f a)) :
    FailsIn P (as.mapM f) :=
  (Ends.mapM h).failsIn

end

/-- The property covers the errors for pieces of the wrong sort and for code that cannot be
written. -/
structure Covers (P : Error → Prop) : Prop where
  codeFormat (fault : FormatFault) (format : Option String) : P (.codeFormat fault format)
  lacking : P .lacking
  unsuited : P .unsuited
  exhausted : P .argumentsExhausted

theorem Covers.marker {P : Error → Prop} (hP : Covers P) {e : Error} (h : e.isMarkerFault = true) :
    P e := by
  cases e with
  | codeFormat fault format => exact hP.codeFormat fault format
  | _ => cases h

namespace Layout

def FailsIn (P : Error → Prop) : Layout → Prop
  | seq a b => a.FailsIn P ∧ b.FailsIn P
  | comment d => d.FailsIn P
  | declaration d => d.FailsIn P
  | body _ d => d.FailsIn P
  | fail e => P e
  | _ => True

variable {P : Error → Prop}

@[simp] theorem failsIn_append {a b : Layout} :
    (a ++ b).FailsIn P ↔ a.FailsIn P ∧ b.FailsIn P := Iff.rfl

@[simp] theorem failsIn_text (s : String) : (text s).FailsIn P := trivial

@[simp] theorem failsIn_empty : empty.FailsIn P := trivial

@[simp] theorem failsIn_fail {e : Error} : (fail e).FailsIn P ↔ P e := Iff.rfl

theorem FailsIn.run (hP : Covers P) {d : Layout} (h : d.FailsIn P) {w : Writer} {e : Error}
    (he : (d.run w).error = some e) : P e := by
  induction d generalizing w with
  | empty | text | indent => cases he
  | seq a b iha ihb =>
      cases hr : (a.run w).error with
      | none =>
          rw [show (seq a b).run w = (a.run w).andThen b.run from rfl,
            Written.andThen_of_ok hr] at he
          exact ihb h.2 he
      | some x =>
          rw [show (seq a b).run w = (a.run w).andThen b.run from rfl,
            Written.andThen_of_error hr] at he
          exact iha h.1 he
  | unindent => exact hP.marker (Writer.unindent_error he)
  | openStatement => exact hP.marker (Writer.openStatement_error he)
  | closeStatement => exact hP.marker (Writer.closeStatement_error he)
  | freshLine =>
      simp only [Layout.run, Writer.freshLine] at he
      split at he <;> cases he
  | comment d ih | declaration d ih => exact ih h he
  | body scope d ih => exact ih h he
  | fail x =>
      cases he
      exact h

theorem FailsIn.alone (hP : Covers P) {d : Layout} (h : d.FailsIn P) {unit : IndentUnit}
    (hu : KotlinDecl.FailsIn P unit) : KotlinDecl.FailsIn P (d.alone unit) := by
  refine hu.bind fun u => ?_
  simp only [render]
  split
  · next e hr => exact h.run hP hr
  · trivial

@[simp] theorem failsIn_ofText {x : Except Error String} :
    (ofText x).FailsIn P ↔ KotlinDecl.FailsIn P x := by
  cases x <;> exact Iff.rfl

theorem failsIn_orFail {x : Except Error Layout} :
    (orFail x).FailsIn P ↔ Ends P (·.FailsIn P) x := by
  cases x <;> exact Iff.rfl

@[simp] theorem failsIn_when {b : Bool} {d : Layout} :
    (Layout.when b d).FailsIn P ↔ (b = true → d.FailsIn P) := by
  cases b with
  | true => exact ⟨fun h _ => h, fun h => h rfl⟩
  | false => exact iff_of_true trivial nofun

@[simp] theorem failsIn_ofOption {o : Option Layout} :
    (ofOption o).FailsIn P ↔ ∀ d ∈ o, d.FailsIn P := by
  cases o with
  | none => exact iff_of_true trivial nofun
  | some d => exact ⟨fun h _ hd => Option.some.inj hd ▸ h, fun h => h d rfl⟩

@[simp] theorem failsIn_separated {s : String} {ds : List Layout} :
    (separated (text s) ds).FailsIn P ↔ ∀ d ∈ ds, d.FailsIn P := by
  induction ds with
  | nil => exact iff_of_true trivial (List.forall_mem_nil _)
  | cons d ds ih =>
      cases ds with
      | nil => exact List.forall_mem_singleton.symm
      | cons e ds =>
          rw [List.forall_mem_cons, ← ih]
          exact and_congr_left fun _ => and_iff_left trivial

@[simp] theorem failsIn_parenthesized {ds : List Layout} :
    (parenthesized ds).FailsIn P ↔ ∀ d ∈ ds, d.FailsIn P := by
  simp [parenthesized]

@[simp] theorem failsIn_modifiers (ms : ModifierSet) (implied : List Modifier) :
    (modifiers ms implied).FailsIn P := by
  unfold modifiers concat
  induction (Modifier.canonical ms.toList).filter (· ∉ implied) with
  | nil => trivial
  | cons m rest ih => exact ⟨trivial, ih⟩

theorem failsIn_kdoc {isEmpty : Bool} {code : Layout} (h : code.FailsIn P) :
    (kdoc isEmpty code).FailsIn P := by
  cases isEmpty with
  | true => trivial
  | false => exact ⟨⟨trivial, h, trivial⟩, trivial⟩

@[simp] theorem failsIn_block {code : Layout} : (block code).FailsIn P ↔ code.FailsIn P := by
  simp [block, FailsIn]

theorem failsIn_members {first : Bool} {ms : List (Except Error Layout)}
    (h : ∀ m ∈ ms, Ends P (·.FailsIn P) m) : (members first ms).FailsIn P := by
  induction ms generalizing first with
  | nil => trivial
  | cons m ms ih =>
      obtain ⟨hm, hms⟩ := List.forall_mem_cons.1 h
      cases m with
      | error e => exact hm
      | ok d => exact ⟨⟨by simp, hm⟩, ih hms⟩

theorem failsIn_code (hP : Covers P) {ps : List Part} {args : List (Placeholder → Layout)}
    (h : ∀ a ∈ args, ∀ p, (a p).FailsIn P) : (code ps args).FailsIn P := by
  induction ps generalizing args with
  | nil => trivial
  | cons q ps ih =>
      cases q with
      | argument p =>
          cases args with
          | nil => exact hP.exhausted
          | cons a args =>
              obtain ⟨ha, hargs⟩ := List.forall_mem_cons.1 h
              exact ⟨ha p, ih hargs⟩
      | split c => exact hP.lacking
      | _ => exact ⟨trivial, ih h⟩

end Layout

mutual

def Key.FailsIn (P : Error → Prop) : Key → Prop
  | .list items => FailsInAll P items
  | .generic raw args _ => raw.FailsIn P ∧ FailsInAll P args
  | .typeVar _ bounds _ _ _ => FailsInAll P bounds
  | .code _ args text => FailsInAll P args ∧ KotlinDecl.FailsIn P text.get
  | .decl _ _ text => KotlinDecl.FailsIn P text.get
  | _ => True

def Key.FailsInAll (P : Error → Prop) : List Key → Prop
  | [] => True
  | k :: rest => k.FailsIn P ∧ FailsInAll P rest

end

namespace Key

variable {P : Error → Prop}

theorem failsInAll_iff {ks : List Key} : FailsInAll P ks ↔ ∀ k ∈ ks, k.FailsIn P := by
  induction ks with
  | nil => exact iff_of_true trivial (List.forall_mem_nil _)
  | cons k ks ih => rw [FailsInAll, ih, List.forall_mem_cons]

mutual

theorem FailsIn.hash (hP : Covers P) : {k : Key} → k.FailsIn P → KotlinDecl.FailsIn P k.hash
  | .list _, _ => hP.unsuited
  | .generic _ _ _, h =>
    (FailsIn.hash hP h.1).bind fun _ => (FailsInAll.hashAll hP h.2).bind fun _ => failsIn_ok _
  | .typeVar _ _ _ _ _, h => (FailsInAll.hashAll hP h).bind fun _ => failsIn_ok _
  | .code _ _ _, h => h.2.bind fun _ => failsIn_ok _
  | .decl _ _ _, h => KotlinDecl.FailsIn.bind h fun _ => failsIn_ok _
  | .null, _ | .bool _, _ | .int _, _ | .str _, _ | .modifier _, _ | .kind _, _
  | .named _ _ _, _ => failsIn_ok _

theorem FailsInAll.hashAll (hP : Covers P) :
    {ks : List Key} → FailsInAll P ks → KotlinDecl.FailsIn P (hashAll ks)
  | [], _ => failsIn_ok _
  | _ :: _, h =>
    (FailsIn.hash hP h.1).bind fun _ => (FailsInAll.hashAll hP h.2).bind fun _ => failsIn_ok _

end

theorem failsIn_sameText {a b : LazyText} (ha : KotlinDecl.FailsIn P a.get)
    (hb : KotlinDecl.FailsIn P b.get) : KotlinDecl.FailsIn P (sameText a b) :=
  ha.bind fun _ => hb.bind fun _ => failsIn_ok _

theorem failsIn_both {x y : Except Error Bool} (hx : KotlinDecl.FailsIn P x)
    (hy : KotlinDecl.FailsIn P y) :
    KotlinDecl.FailsIn P (do if ← x then y else return false) := by
  refine hx.bind fun b => ?_
  cases b with
  | true => exact hy
  | false => exact failsIn_ok false

theorem failsIn_ite {c : Prop} [Decidable c] {x : Except Error Bool} (hx : KotlinDecl.FailsIn P x)
    (b : Bool) : KotlinDecl.FailsIn P (if c then x else .ok b) := by
  by_cases h : c
  · rwa [if_pos h]
  · rw [if_neg h]
    exact failsIn_ok b

mutual

theorem FailsIn.equal (inside : Bool) : {a b : Key} → a.FailsIn P → b.FailsIn P →
    KotlinDecl.FailsIn P (equal inside a b)
  | .list _, b, ha, hb => by
    cases b with
    | list bs => exact failsIn_ite (FailsInAll.equalAll ha hb) false
    | _ => exact failsIn_ok false
  | .generic _ _ _, b, ha, hb => by
    cases b with
    | generic raw args nullable =>
        exact failsIn_both (FailsIn.equal true ha.1 hb.1)
          (failsIn_both (FailsInAll.equalAll ha.2 hb.2) (failsIn_ok _))
    | _ => exact failsIn_ok false
  | .typeVar _ _ _ _ _, b, ha, hb => by
    cases b with
    | typeVar name bounds variance reified nullable =>
        exact failsIn_ite (failsIn_both (FailsInAll.equalAll ha hb) (failsIn_ok _)) false
    | _ => exact failsIn_ok false
  | .code _ _ _, b, ha, hb => by
    cases b with
    | code parts args text => exact failsIn_ite (FailsInAll.equalAll ha.1 hb.1) false
    | _ => exact failsIn_ok false
  | .decl _ _ _, b, ha, hb => by
    cases b with
    | decl serial sort text =>
        rw [Key.equal]
        split
        · exact failsIn_ok true
        · exact failsIn_ite (failsIn_sameText ha hb) false
    | _ => exact failsIn_ok false
  | .null, b, _, _ | .bool _, b, _, _ | .int _, b, _, _ | .str _, b, _, _
  | .modifier _, b, _, _ | .kind _, b, _, _ | .named _ _ _, b, _, _ => by
    cases b <;> exact failsIn_ok _

theorem FailsInAll.equalAll : {as bs : List Key} → FailsInAll P as → FailsInAll P bs →
    KotlinDecl.FailsIn P (equalAll as bs)
  | [], [], _, _ | [], _ :: _, _, _ | _ :: _, [], _, _ => failsIn_ok _
  | _ :: _, _ :: _, ha, hb => failsIn_both (FailsIn.equal true ha.1 hb.1)
      (FailsInAll.equalAll ha.2 hb.2)

end

theorem FailsIn.finds (hP : Covers P) {sought stored : Key} (hs : sought.FailsIn P)
    (ht : stored.FailsIn P) : KotlinDecl.FailsIn P (sought.finds stored) :=
  failsIn_both ((hs.hash hP).bind fun _ => (ht.hash hP).bind fun _ => failsIn_ok _)
    (ht.equal true hs)

theorem FailsIn.indexIn (hP : Covers P) {sought : Key} {keys : List Key} (hs : sought.FailsIn P)
    (hks : ∀ k ∈ keys, k.FailsIn P) : KotlinDecl.FailsIn P (sought.indexIn keys) := by
  refine (hs.hash hP).bind fun _ => ?_
  generalize 0 = n
  induction keys generalizing n with
  | nil => exact failsIn_ok none
  | cons k keys ih =>
      obtain ⟨hk, hks⟩ := List.forall_mem_cons.1 hks
      refine (hs.finds hP hk).bind fun found => ?_
      cases found with
      | true => exact failsIn_ok (some n)
      | false => exact ih hks (n + 1)

end Key

end KotlinDecl
