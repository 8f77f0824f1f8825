import Solid.Proofs.Listing
namespace Solid

-- The calls made to a block, one after the other. Behind a nested filling the caller goes on with
-- `next` when it succeeded and with `caught` when it failed: `fail` passes its error on, and
-- `fun _ => next` swallows it.
inductive Filling (ε : Type) where
  | done
  | fail (e : ε)
  | statement (text : String) (next : Filling ε)
  | blank (next : Filling ε)
  | nested (header : String) (fill next : Filling ε) (caught : ε → Filling ε)

namespace Filling
variable {ε : Type}

-- How the filling ends, and the block at that time. What it wrote before it failed is there.
def run : Filling ε → Block → Except ε Unit × Block
  | done, b => (.ok (), b)
  | fail e, b => (.error e, b)
  | statement text next, b => next.run (b.statement text)
  | blank next, b => next.run b.blank
  | nested header fill next caught, b =>
    match Block.nested (m := Id) header fill.run b with
    | (.ok (), b) => next.run b
    | (.error e, b) => (caught e).run b

-- How the filling ends, which no block has a say in.
def outcome : Filling ε → Except ε Unit
  | done => .ok ()
  | fail e => .error e
  | statement _ next | blank next => next.outcome
  | nested _ fill next caught =>
    match fill.outcome with
    | .ok () => next.outcome
    | .error e => (caught e).outcome

-- The same calls without the nested ones whose filling fails, at any depth.
def erased : Filling ε → Filling ε
  | done => done
  | fail e => fail e
  | statement text next => statement text next.erased
  | blank next => blank next.erased
  | nested header fill next caught =>
    match fill.outcome with
    | .ok () => nested header fill.erased next.erased fun e => (caught e).erased
    | .error e => (caught e).erased

-- No nested filling fails on the way, at any depth.
def Flawless : Filling ε → Prop
  | done | fail _ => True
  | statement _ next | blank next => next.Flawless
  | nested _ fill next _ => fill.outcome = .ok () ∧ fill.Flawless ∧ next.Flawless

-- The lines that the calls write at a depth, each at its place.
def listing (depth : Nat) : Filling ε → List String
  | done | fail _ => []
  | statement text next => Line.placed depth (text ++ ";") :: next.listing depth
  | blank next => "" :: next.listing depth
  | nested header fill next caught =>
    match fill.outcome with
    | .ok () =>
      Line.placed depth header :: Line.placed depth "\x7b" :: fill.listing (depth + 1)
        ++ Line.placed depth "\x7d;" :: next.listing depth
    | .error e => (caught e).listing depth

section
variable {header : String} {fill next : Filling ε} {caught : ε → Filling ε} {b child : Block}

theorem filled_appended (filled : fill.run (.titled header) = (.ok (), child)) :
    Block.nested (m := Id) header fill.run b = (.ok (), b.append (.block header child.lines)) := by
  simp only [Block.nested, bind, filled]
  rfl

-- Whatever the filling wrote before it failed, the block is as it was.
theorem failed_unchanged {e : ε} (failed : fill.run (.titled header) = (.error e, child)) :
    Block.nested (m := Id) header fill.run b = (.error e, b) := by
  simp only [Block.nested, bind, failed]
  rfl

theorem nested_done (filled : fill.run (.titled header) = (.ok (), child)) :
    (nested header fill next caught).run b = next.run (b.append (.block header child.lines)) := by
  rw [run, filled_appended filled]

theorem nested_failed {e : ε} (failed : fill.run (.titled header) = (.error e, child)) :
    (nested header fill next caught).run b = (caught e).run b := by
  rw [run, failed_unchanged failed]

end

theorem run_outcome (f : Filling ε) (b : Block) : (f.run b).1 = f.outcome := by
  induction f generalizing b with
  | done | fail => rfl
  | statement text next ih | blank next ih => exact ih _
  | nested header fill next caught ihFill ihNext ihCaught =>
    have inner := ihFill (.titled header)
    rcases filled : fill.run (.titled header) with ⟨e | ⟨⟩, child⟩
    · rw [filled] at inner
      rw [nested_failed filled, outcome, ← inner]
      exact ihCaught e b
    · rw [filled] at inner
      rw [nested_done filled, outcome, ← inner]
      exact ihNext _

-- A failed filling is erased where its caller goes on from the block as it was before the call.
theorem erased_run (f : Filling ε) (b : Block) : f.erased.run b = f.run b := by
  induction f generalizing b with
  | done | fail => rfl
  | statement text next ih | blank next ih => exact ih _
  | nested header fill next caught ihFill ihNext ihCaught =>
    have inner := run_outcome fill (.titled header)
    rcases filled : fill.run (.titled header) with ⟨e | ⟨⟩, child⟩
    · rw [filled] at inner
      rw [nested_failed filled, erased, ← inner]
      exact ihCaught e b
    · rw [filled] at inner
      have same := (ihFill (.titled header)).trans filled
      rw [nested_done filled, erased, ← inner]
      exact (nested_done same).trans (ihNext _)

theorem erased_outcome (f : Filling ε) : f.erased.outcome = f.outcome := by
  rw [← run_outcome f.erased .root, erased_run, run_outcome]

theorem erased_flawless (f : Filling ε) : f.erased.Flawless := by
  induction f with
  | done | fail => trivial
  | statement text next ih | blank next ih => exact ih
  | nested header fill next caught ihFill ihNext ihCaught =>
    rw [erased]
    split
    · next filled => exact ⟨(erased_outcome fill).trans filled, ihFill, ihNext⟩
    · next e _ => exact ihCaught e

theorem run_header (f : Filling ε) (b : Block) : (f.run b).2.header = b.header := by
  induction f generalizing b with
  | done | fail => rfl
  | statement text next ih | blank next ih => exact ih _
  | nested header fill next caught ihFill ihNext ihCaught =>
    rcases filled : fill.run (.titled header) with ⟨e | ⟨⟩, child⟩
    · rw [nested_failed filled]
      exact ihCaught e b
    · rw [nested_done filled]
      exact ihNext _

-- The block is what the calls without the failed ones make of it, and the call of a failed filling
-- hands its caller the error of that filling and the block as it was.
theorem run_traceless (f : Filling ε) (b : Block) :
    f.run b = f.erased.run b ∧ (f.run b).2.text = (f.erased.run b).2.text ∧ f.erased.Flawless ∧
      ∀ header e, (f.run (.titled header)).1 = .error e →
        Block.nested (m := Id) header f.run b = (.error e, b) ∧
        ∀ next caught, (nested header f next caught).run b = (caught e).run b := by
  have same := (erased_run f b).symm
  refine ⟨same, congrArg (fun result => result.2.text) same, erased_flawless f, ?_⟩
  intro header e failed
  rcases filled : f.run (.titled header) with ⟨result, child⟩
  rw [filled] at failed
  cases failed
  exact ⟨failed_unchanged filled, fun next caught => nested_failed filled⟩

def broken : Filling Nat := statement "b" (fail 7)

theorem run_traceless_broken : (broken.run (.titled "a")).1 = .error 7 ∧
    Block.nested (m := Id) "a" broken.run .root = (.error 7, .root) ∧
    (nested "a" broken done fail).run .root = (.error 7, .root) := by
  obtain ⟨unchanged, passed⟩ := (run_traceless broken .root).2.2.2 "a" 7 rfl
  exact ⟨rfl, unchanged, passed done fail⟩

-- The inner error is passed on, the outer one is swallowed.
example : ((statement "a" (nested "outer" (statement "c" (nested "inner" broken done fail)) done
    fun _ => statement "d" done)).run .root).2.text = ["a;", "d;"] := by decide

-- The calls write behind what the block holds, at whatever depth it stands.
theorem run_listing (f : Filling ε) (b : Block) (depth : Nat) :
    Line.listingAll depth (f.run b).2.lines = Line.listingAll depth b.lines ++ f.listing depth := by
  induction f generalizing b depth with
  | done | fail => exact (List.append_nil _).symm
  | statement text next ih =>
    rw [run, ih, Block.statement, Block.append, Line.listingAll_append, List.append_assoc]
    rfl
  | blank next ih =>
    rw [run, ih, Block.blank, Block.append, Line.listingAll_append, List.append_assoc]
    rfl
  | nested header fill next caught ihFill ihNext ihCaught =>
    have inner := run_outcome fill (.titled header)
    rcases filled : fill.run (.titled header) with ⟨e | ⟨⟩, child⟩
    · rw [filled] at inner
      rw [nested_failed filled, listing, ← inner]
      exact ihCaught e b depth
    · rw [filled] at inner
      have below := ihFill (.titled header) (depth + 1)
      rw [filled] at below
      rw [nested_done filled, ihNext, Block.append, Line.listingAll_append, List.append_assoc, listing, ← inner]
      simp only [Line.listingAll, Line.listing, below, Block.titled, List.nil_append, List.append_nil,
        List.cons_append, List.append_assoc]

end Filling

-- Indenting what has been written, once for every block around it, is writing at the right depth;
-- nothing else in the buffer is touched. What calls on a new block leave is their listing.
theorem Block.text_indented (b : Block) :
    b.text = b.listing 0 ∧ (∀ out, b.write out = out ++ (b.listing 0).toArray) ∧
    ∀ (ε : Type) (f : Filling ε), (f.run .root).2.text = f.listing 0 ∧
      ∀ header, (f.run (.titled header)).2.text = header :: "\x7b" :: f.listing 1 ++ ["\x7d;"] := by
  refine ⟨b.text_listing, fun out => b.write_listing out, ?_⟩
  intro ε f
  constructor
  · rw [text_listing, listing, f.run_header]
    exact f.run_listing .root 0
  · intro header
    rw [text_listing, listing, f.run_header]
    simp only [titled, Line.listing, Line.placed_zero, f.run_listing]
    rfl

-- An empty header and a blank are never indented, an empty statement is.
example : ((Filling.nested "" (.nested "" (.blank (.statement "" .done)) .done .fail) .done .fail).run
    (.root : Block) : Except Unit Unit × Block).2.text =
    ["", "\x7b", "", "    \x7b", "", "        ;", "    \x7d;", "\x7d;"] := by decide

end Solid
