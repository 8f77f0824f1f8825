import Solid.Proofs.Filling
namespace Solid

-- Everything but a blank ends with a semicolon.
theorem listing_last {line : Line} (other : line ≠ .blank) :
    ∃ front last, line.listing 0 = front ++ [last ++ ";"] := by
  cases line with
  | statement text => exact ⟨[], text, by rw [Line.listing, Line.placed_zero]; rfl⟩
  | blank => exact absurd rfl other
  | block header lines => exact ⟨_, "\x7d", rfl⟩

theorem listingAll_nothing {depth : Nat} {lines : List Line} : Line.listingAll depth lines = [] ↔ lines = [] := by
  cases lines with
  | nil => simp [Line.listingAll]
  | cons line rest => cases line <;> simp [Line.listingAll, Line.listing]

theorem empty_last {text : String} : text = "" ↔ text.toList.getLast? = none := by
  rw [List.getLast?_eq_none_iff, String.toList_eq_nil_iff]

theorem separator_last (front : List String) :
    ("\n".intercalate (front ++ [""])).toList.getLast? = if front = [] then none else some '\n' := by
  by_cases nothing : front = []
  · simp [nothing]
  · rw [String.intercalate_append_of_ne_nil nothing (by simp)]
    simp [nothing]

namespace Document

-- A document as it is built: definitions are registered and the body is filled, in any order.
inductive Built : Document → Prop where
  | empty : Built .empty
  | register {d : Document} (key text : String) : Built d → Built ⟨(d.preamble.register key text).2, d.body⟩
  | fill {d : Document} {ε : Type} (f : Filling ε) : Built d → Built ⟨d.preamble, (f.run d.body).2⟩

theorem built_outermost {d : Document} (built : d.Built) : d.body.header = none := by
  induction built with
  | empty => rfl
  | register _ _ _ ih => exact ih
  | fill f _ ih => exact (f.run_header _).trans ih

-- A separator with nothing behind it.
def Dangling (d : Document) : Prop :=
  d.preamble.isEmpty = false ∧ d.body.lines = [] ∨ d.body.lines.getLast? = some .blank

-- The lines above the body.
def top (d : Document) : List String :=
  d.preamble.fragments ++ if d.preamble.fragments.isEmpty then [] else [""]

theorem top_nothing {d : Document} : d.top = [] ↔ d.preamble.isEmpty = true := by
  unfold top Preamble.isEmpty
  cases d.preamble.fragments <;> simp

theorem top_separator {d : Document} (some : d.preamble.isEmpty = false) : ∃ front, front ≠ [] ∧ d.top = front ++ [""] := by
  unfold top Preamble.isEmpty at *
  cases fragments : d.preamble.fragments with
  | nil => simp [fragments] at some
  | cons fragment rest => exact ⟨fragment :: rest, by simp, by simp⟩

section
variable {d : Document} {before : List Line} {line : Line}

theorem built_render (built : d.Built) :
    d.render = "\n".intercalate (d.top ++ Line.listingAll 0 d.body.lines) := by
  rw [render, lines, Block.text, Block.write_listing, Block.listing, built_outermost built]
  simp [top]

theorem bare_last (built : d.Built) (nothing : d.body.lines = []) :
    d.render.toList.getLast? = if d.preamble.isEmpty = true then none else some '\n' := by
  rw [built_render built, nothing, Line.listingAll, List.append_nil]
  cases known : d.preamble.isEmpty with
  | true =>
    rw [top_nothing.mpr known]
    rfl
  | false =>
    obtain ⟨front, some, separated⟩ := top_separator known
    rw [separated, separator_last, if_neg some]
    rfl

theorem blank_last (built : d.Built) (split : d.body.lines = before ++ [.blank]) :
    d.render.toList.getLast? = if d.preamble.isEmpty = true ∧ before = [] then none else some '\n' := by
  have alone : d.top ++ Line.listingAll 0 before = [] ↔ d.preamble.isEmpty = true ∧ before = [] := by
    rw [List.append_eq_nil_iff, top_nothing, listingAll_nothing]
  rw [built_render built, split, Line.listingAll_append, ← List.append_assoc]
  change ("\n".intercalate (_ ++ [""])).toList.getLast? = _
  simp only [separator_last, alone]

theorem filled_last (built : d.Built) (split : d.body.lines = before ++ [line]) (other : line ≠ .blank) :
    d.render.toList.getLast? = some ';' := by
  obtain ⟨front, last, listed⟩ := listing_last other
  rw [built_render built, split, Line.listingAll_append, Line.listingAll, Line.listingAll, List.append_nil, listed,
    ← List.append_assoc, ← List.append_assoc, OpenScad.unended]

-- The text ends in a newline exactly when its last line is a separator, unless that is the only line.
theorem render_ending (built : d.Built) :
    (d.render.toList.getLast? = some '\n' ↔ d.Dangling ∧ d.render ≠ "") ∧
      (d.render = "" ↔ d.preamble.isEmpty = true ∧ (d.body.lines = [] ∨ d.body.lines = [.blank])) := by
  rw [ne_eq, empty_last, Dangling]
  rcases List.eq_nil_or_concat' d.body.lines with nothing | ⟨before, line, split⟩
  · rw [bare_last built nothing, nothing]
    cases d.preamble.isEmpty <;> simp
  · by_cases blank : line = .blank
    · subst blank
      rw [blank_last built split, split]
      by_cases alone : d.preamble.isEmpty = true ∧ before = [] <;> simp [alone]
    · have single : before ++ [line] ≠ [.blank] := by
        intro same
        have apart : before ++ [line] = [] ++ [.blank] := same
        exact blank (List.singleton_inj.mp (List.append_inj_right' apart rfl))
      rw [filled_last built split blank, split]
      simp [blank, single]

end

-- The separator of a blank counts as a line of its own, with nothing to separate.
example : (⟨.empty, Block.root.blank⟩ : Document).render = "" := by decide

def closedByBlank : Document := ⟨.empty, (Block.root.statement "helper()").blank⟩

theorem render_ending_blank : closedByBlank.Built ∧ closedByBlank.render.toList.getLast? = some '\n' := by
  have built : closedByBlank.Built := .fill (.statement "helper()" (.blank (.done : Filling Unit))) .empty
  exact ⟨built, (render_ending built).1.mpr ⟨.inr rfl, by decide⟩⟩

-- The separator under a preamble stands there before it is known whether a body follows.
def loneHelper : Document := ⟨(Preamble.empty.register "helper" "module helper() \x7b\x7d").2, .root⟩

theorem loneHelper_ended : loneHelper.Built ∧ Unbroken "helper" ∧ Unbroken "module helper() \x7b\x7d" ∧
    loneHelper.render.toList.getLast? = some '\n' :=
  ⟨.register _ _ .empty, by decide, by decide, by decide⟩

end Document
end Solid
