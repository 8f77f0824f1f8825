import Solid.Proofs.Figures
import Solid.Proofs.Quoting
import Solid.Proofs.Sessions
namespace Solid.Config
open Toml (Row Quotes)

def distanceRow (x : Float) : Row := ⟨"layer_distance", Decimal.Layout.setting.characters x, .float x⟩

def quotedRow (key text : String) : Row := ⟨key, (Quotes.best text.toList).write text.toList, .text text⟩

def flagRow (b : Bool) : Row :=
  ⟨"verbose", if b then ['t', 'r', 'u', 'e'] else ['f', 'a', 'l', 's', 'e'], .boolean b⟩

def rows (c : Config) : List Row :=
  distanceRow c.layerDistance :: quotedRow "orientation" c.orientation.name ::
    ((c.outputDir.map (quotedRow "output_dir")).toList ++ [flagRow c.verbose])

-- The keys of the configuration need no quotes.
def Bare (key : String) : Prop := key.toList ≠ [] ∧ key.toList.all Toml.isBare = true

theorem keys_bare : Bare "layer_distance" ∧ Bare "orientation" ∧ Bare "output_dir" ∧ Bare "verbose" :=
  ⟨⟨by decide, by decide⟩, ⟨by decide, by decide⟩, ⟨by decide, by decide⟩, by decide, by decide⟩

theorem distance_proper {x : Float} (number : x.isNaN = false) : (distanceRow x).Proper := by
  obtain ⟨c, more, shape, opening⟩ := Toml.setting_begins number
  obtain ⟨visible, bracket, brace, -⟩ := Toml.opening_plain opening
  obtain ⟨⟨filled, bare⟩, -⟩ := keys_bare
  refine ⟨filled, List.all_eq_true.mp bare, ⟨c, more, shape, visible, bracket, brace⟩, fun tail => ?_,
    Toml.setting_clean number⟩
  have read := Toml.setting_number number tail
  change Toml.scalar? (Decimal.Layout.setting.characters x ++ _) = _
  rw [shape] at read ⊢
  exact (Toml.scalar_number opening _).trans read

theorem best_mark (text : List Char) : (Quotes.best text).mark = '"' ∨ (Quotes.best text).mark = '\'' := by
  rcases Toml.best_cases text with best | best | ⟨best, -⟩ | ⟨best, -⟩
  · exact .inl (best ▸ rfl)
  · exact .inl (best ▸ rfl)
  · exact .inr (best ▸ rfl)
  · exact .inr (best ▸ rfl)

theorem quoted_proper {key : String} (bare : Bare key) (text : String) : (quotedRow key text).Proper := by
  obtain ⟨more, shape⟩ := Toml.written_begins (Quotes.best text.toList) text.toList
  have mark := best_mark text.toList
  refine ⟨bare.1, List.all_eq_true.mp bare.2, ⟨_, _, shape, ?_⟩, fun tail => ?_, Toml.written_clean⟩
  · rcases mark with double | single
    · rw [double]
      decide
    · rw [single]
      decide
  · have read := @Toml.quoted_written text.toList ('\n' :: tail) nofun nofun
    change Toml.scalar? ((Quotes.best text.toList).write text.toList ++ '\n' :: tail) = _
    rw [shape, List.cons_append] at read ⊢
    unfold Toml.scalar?
    dsimp only
    rw [if_pos mark, read, Option.map_some, String.ofList_toList]
    rfl

theorem flag_proper (b : Bool) : (flagRow b).Proper := by
  obtain ⟨-, -, -, filled, bare⟩ := keys_bare
  cases b with
  | false => exact ⟨filled, List.all_eq_true.mp bare, ⟨_, _, rfl, by decide⟩, fun _ => rfl, by decide⟩
  | true => exact ⟨filled, List.all_eq_true.mp bare, ⟨_, _, rfl, by decide⟩, fun _ => rfl, by decide⟩

theorem rows_proper {c : Config} (number : c.layerDistance.isNaN = false) : ∀ row ∈ c.rows, row.Proper := by
  obtain ⟨-, orientation, folder, -⟩ := keys_bare
  simp only [rows, List.forall_mem_cons, List.forall_mem_append]
  refine ⟨distance_proper number, quoted_proper orientation _, fun row member => ?_, flag_proper _,
    List.forall_mem_nil _⟩
  obtain ⟨path, -, rfl⟩ := Option.map_eq_some_iff.mp (Option.mem_toList.mp member)
  exact quoted_proper folder path

theorem rows_distinct (c : Config) : (c.rows.map Row.key).Nodup := by
  obtain ⟨x, o, _ | path, b⟩ := c
  · change ["layer_distance", "orientation", "verbose"].Nodup
    decide
  · change ["layer_distance", "orientation", "output_dir", "verbose"].Nodup
    decide

theorem line_row (key value : String) : (line key value).toList =
    key.toList ++ ' ' :: '=' :: ' ' :: (value.toList ++ ['\n']) := by
  simp only [line, String.toList_append, List.append_assoc]
  rfl

theorem distance_text (x : Float) :
    (line "layer_distance" (Decimal.Layout.setting.text x)).toList = (distanceRow x).text := by
  have value : (Decimal.Layout.setting.text x).toList = (distanceRow x).value := String.toList_ofList
  rw [line_row, value]
  rfl

theorem quoted_text (key text : String) : (line key (Toml.quote text)).toList = (quotedRow key text).text := by
  have value : (Toml.quote text).toList = (quotedRow key text).value := String.toList_ofList
  rw [line_row, value]
  rfl

theorem flag_text (b : Bool) : (line "verbose" (if b then "true" else "false")).toList = (flagRow b).text := by
  have word : (if b then "true" else "false").toList = (flagRow b).value := by
    cases b <;> decide
  rw [line_row, word]
  rfl

theorem toText_rows (c : Config) : c.toText.toList = c.rows.flatMap Row.text := by
  unfold toText rows
  cases c.outputDir with
  | none =>
    simp only [String.toList_append, distance_text, quoted_text, flag_text]
    simp
  | some path =>
    simp only [String.toList_append, distance_text, quoted_text, flag_text]
    simp

theorem ofText_toText {c : Config} (number : c.layerDistance.isNaN = false) : ofText c.toText = .ok c := by
  unfold ofText
  rw [Toml.read_settings (rows_proper number) (rows_distinct c) (toText_rows c)]
  obtain ⟨x, o, _ | path, b⟩ := c
  · cases o <;> rfl
  · cases o <;> rfl

theorem save_reloaded {c : Config} {files files' : Files} {path : String} (number : c.layerDistance.isNaN = false)
    (saved : (c.save Files.host path).run.run files = (.ok (), files')) :
    (fromFile Files.host path).run.run files' = (.ok c, files') :=
  fromFile_ran.mpr ⟨rfl, _, save_ran saved, ofText_toText number⟩

-- Quotes of both kinds, a backslash and line ends of both kinds.
def awkward : Config := ⟨-0.0, .horizontal, some "a\"\"\"'''\\\r\n\x7f\t", true⟩

theorem save_ok {ran : Except ConfigError Unit × Files} (ok : ran.1.toBool = true) : ran = (.ok (), ran.2) := by
  obtain ⟨_ | _, files⟩ := ran
  · cases ok
  · rfl

theorem save_reloaded_awkward : (fromFile Files.host "s.toml").run.run
    ((awkward.save Files.host "s.toml").run.run Files.empty).2 =
      (.ok awkward, ((awkward.save Files.host "s.toml").run.run Files.empty).2) :=
  save_reloaded (by decide +kernel) (save_ok (by decide +kernel))

end Solid.Config
