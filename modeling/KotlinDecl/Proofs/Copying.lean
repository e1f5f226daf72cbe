import KotlinDecl.Proofs.Drafting

namespace KotlinDecl

/-- The value under another number. The number tells apart declarations that have been finished
one after the other; it is no part of what they declare. -/
def Value.numbered (n : Option Nat) : Value → Value
  | .decl _ d => .decl n d
  | v => v

namespace Draft

variable {unit : IndentUnit}

theorem build_numbered {s : Draft} {n : Option Nat} {v : Value} (h : s.build unit n = .ok v)
    (m : Option Nat) : s.build unit m = .ok (v.numbered m) := by
  cases s with
  | typeDecl d =>
      obtain ⟨e, he, h⟩ := ok_of_bind h
      cases h
      simp only [build, he]
      rfl
  | _ =>
      cases h
      rfl

end Draft

namespace Value

theorem literal_numbered (unit : IndentUnit) (n : Option Nat) (v : Value) :
    ((v.numbered n).forms unit).literal = (v.forms unit).literal := by
  cases v with
  | decl m d => cases d <;> rfl
  | _ => rfl

theorem written_numbered (unit : IndentUnit) (n : Option Nat) (v : Value) :
    ((v.numbered n).forms unit).written = (v.forms unit).written := by
  cases v with
  | decl m d => cases d <;> rfl
  | _ => rfl

/-- A value that has been finished can be copied; the copy has the same parts and is written alike
in every writer, whatever it is told. -/
theorem copy_of_build {unit : IndentUnit} {ok : Draft.Move → Prop} {s : Draft} {n : Option Nat}
    {v : Value} (hs : Draft.Reached unit ok s) (hv : s.build unit n = .ok v) :
    v.copy unit = .ok (v.numbered none) ∧
      ∀ w told, ((v.numbered none).forms unit).literal.run w = (v.forms unit).literal.run w ∧
        (((v.numbered none).forms unit).written told).run w =
          ((v.forms unit).written told).run w := by
  have ht : s.Traced unit False := hs.traced False.elim
  refine ⟨?_, fun w told => ?_⟩
  · rw [copy, Draft.ofCopy_of_build ht.regular hv]
    exact Draft.build_numbered hv none
  · rw [literal_numbered, written_numbered]
    exact ⟨rfl, rfl⟩

/-- A modifier that is repeated stays in its place, and so does a constant. -/
theorem copy_of_build_enum :
    let d := { TypeDecl.plain (.kind .enumKind) (some "E") none with
      modifiers := ⟨[.publicVis, .openDecl]⟩
      constants := [⟨"A", TypeDecl.emptyConstant⟩, ⟨"B", TypeDecl.emptyConstant⟩] }
    Draft.Reached (.ok "  ") (fun _ => True) (.typeDecl d) ∧
      (Draft.typeDecl d).build (.ok "  ") (some 3) = .ok (.decl (some 3) (.typeDecl d)) ∧
      (decl (some 3) (.typeDecl d)).copy (.ok "  ") = .ok (.decl none (.typeDecl d)) := by
  intro d
  have hstart : Draft.Reached (.ok "  ") (fun _ => True)
      (.typeDecl (.plain (.kind .enumKind) (some "E") none)) :=
    .start (x := .named .enumKind (.str "E")) trivial rfl
  have hmodifiers := hstart.call (c := .typeDecl
    (.addModifiers [.modifier .publicVis, .modifier .openDecl, .modifier .publicVis])) trivial
  have hab := (hmodifiers.call (c := .typeDecl (.addConstant (.str "A") .null)) trivial).call
    (c := .typeDecl (.addConstant (.str "B") .null)) trivial
  have hd : Draft.Reached (.ok "  ") (fun _ => True) (.typeDecl d) :=
    hab.call (c := .typeDecl (.addConstant (.str "A") .null)) trivial
  have hv : (Draft.typeDecl d).build (.ok "  ") (some 3) = .ok (.decl (some 3) (.typeDecl d)) := rfl
  exact ⟨hd, hv, (copy_of_build hd hv).1⟩

end Value

end KotlinDecl
