import AsmLens.Proofs.Scope.Relocation
import AsmLens.Proofs.Scope.Rows
import AsmLens.Snapshot.Basic

/-!
# Files of a snapshot do not interfere

The main file of a snapshot is surveyed from the text of the buffer, behind the files that the
report names before it. Which of these can be found decides the numbers of the scopes of the buffer,
and nothing else: every line of the buffer lies in scopes with the same names, kinds and lines.
-/

namespace AsmLens

namespace Snapshot

variable {report : Report} {buffer : Text} {findFile : Text → Option Text} {main : SourceFile}

/-- The sheet of the main file. -/
def mainSheet (report : Report) (buffer : Text) (main : SourceFile) : Scope.Sheet :=
  ⟨main.index, buffer, report.commentSpans main.index⟩

/-- Where the indices differ, the main file is surveyed from the buffer and is the first with its
index. -/
theorem exists_sheets_eq (hdistinct : (report.files.map (·.index)).Nodup)
    (hmain : report.mainFile? = some main) (hlisted : main.isSystem = false) :
    ∃ before after,
      sheets report buffer findFile = before ++ mainSheet report buffer main :: after ∧
      ∀ t ∈ before, t.file ≠ main.index := by
  obtain ⟨hismain, first, rest, hfiles, _⟩ := List.find?_eq_some_iff_append.mp hmain
  let sheet? : SourceFile → Option Scope.Sheet := fun f =>
    if f.isSystem then none
    else (if f.isMain then some buffer else findFile f.path).map fun text =>
      ⟨f.index, text, report.commentSpans f.index⟩
  have hsheet : sheet? main = some (mainSheet report buffer main) := by
    simp only [sheet?, hlisted, hismain]
    rfl
  refine ⟨first.filterMap sheet?, rest.filterMap sheet?, ?_, ?_⟩
  · have hall : sheets report buffer findFile = report.files.filterMap sheet? := rfl
    rw [hall, hfiles, List.filterMap_append, List.filterMap_cons_some hsheet]
  · intro t ht
    obtain ⟨f, hf, hft⟩ := List.mem_filterMap.mp ht
    have hfile : t.file = f.index := by
      simp only [sheet?] at hft
      split at hft
      · cases hft
      · obtain ⟨_, _, rfl⟩ := Option.map_eq_some_iff.mp hft
        rfl
    rw [hfiles, List.map_append, List.map_cons, List.nodup_append] at hdistinct
    rw [hfile]
    exact hdistinct.2.2 f.index (List.mem_map_of_mem hf) main.index List.mem_cons_self

/-- The buffer of a snapshot has the rows of its own survey, and its lines the same chains of scopes
as there. -/
theorem ofReport_main (uri : Uri) (generation : Nat) (buffer : Text)
    (findFile : Text → Option Text) (hdistinct : (report.files.map (·.index)).Nodup)
    (hmain : report.mainFile? = some main) (hlisted : main.isSystem = false) :
    let alone := Scope.survey {} main.index buffer (report.commentSpans main.index)
    let snapshot := ofReport uri generation buffer report findFile
    ∃ l, snapshot.mainFile? = some l ∧ l.rows.map (·.raw) = Source.lines buffer ∧
      ∀ line, snapshot.catalogue.forest.chain (snapshot.scopeAt line) =
        alone.2.chain (alone.1.scopeAt line) := by
  intro alone snapshot
  obtain ⟨before, after, hsheets, hfirst⟩ :
      ∃ before after, sheets report buffer findFile =
        before ++ mainSheet report buffer main :: after ∧ ∀ t ∈ before, t.file ≠ main.index :=
    exists_sheets_eq hdistinct hmain hlisted
  let start := (Scope.surveyAll {} before).2
  have hrelocated : Scope.survey start main.index buffer (report.commentSpans main.index) =
      (alone.1.relocate start.size, start.extend alone.2) :=
    Scope.survey_relocate start (mainSheet report buffer main)
  have hfile : snapshot.mainFile? = some (alone.1.relocate start.size) := by
    have hindex : snapshot.mainIndex? = some main.index :=
      congrArg (Option.map SourceFile.index) hmain
    have hfound := Scope.find?_surveyAll_first {} (s := mainSheet report buffer main) after hfirst
    rw [← hsheets] at hfound
    rw [mainFile?, hindex]
    exact hfound.trans (congrArg (fun run => some run.1) hrelocated)
  have hgrown : (start.extend alone.2).nodes <+: snapshot.catalogue.forest.nodes := by
    have hkept := Scope.survey_isPrefix_surveyAll Scope.Forest.ordered_empty before
      (mainSheet report buffer main) after
    rw [← hsheets] at hkept
    exact congrArg (fun run => run.2.nodes) hrelocated ▸ hkept
  have halone : alone.2.Ordered :=
    (Scope.survey_grows Scope.Forest.ordered_empty (mainSheet report buffer main)).1
  refine ⟨_, hfile, ?_, ?_⟩
  · rw [Scope.Listing.relocate, List.map_map]
    exact Scope.raw_survey {} (mainSheet report buffer main)
  · intro line
    have hscope : snapshot.scopeAt line = Scope.relocate start.size (alone.1.scopeAt line) := by
      rw [scopeAt, hfile]
      exact alone.1.scopeAt_relocate start.size line
    rw [hscope]
    exact Scope.Forest.chain_relocate halone hgrown
      (Scope.scopeAt_lt_size Scope.Forest.ordered_empty (mainSheet report buffer main) line)

/-- Surveys are relocatable and files do not interfere. Surveyed into any forest, a file leaves the
scopes of the forest as they are and adds the scopes that it opens alone, with the numbers above
zero moved up behind those of the forest, here and in its rows. Hence in two snapshots of one
report, whose indices differ and whose main file counts, whatever other files are found, the main
file shows the lines of the buffer, and every line has the same chain of scopes in both. -/
theorem files_isolated :
    (∀ (f : Scope.Forest) (file : Nat) (text : Text) (comments : List Span),
      let alone := Scope.survey {} file text comments
      let run := Scope.survey f file text comments
      run.2.nodes = f.nodes ++ alone.2.nodes.map (Scope.Node.relocate f.size) ∧
      (∀ id < f.size, run.2.node? id = f.node? id) ∧
      (∀ id, id ≠ 0 → run.2.node? (Scope.relocate f.size id) =
        (alone.2.node? id).map (Scope.Node.relocate f.size)) ∧
      run.1 = alone.1.relocate f.size) ∧
    (∀ (uri : Uri) (generation : Nat) (buffer reportText : Text)
      (findFile findFile' : Text → Option Text) (main : SourceFile),
      let report := Report.read SourceFile.bufferMarker reportText
      let snapshot := build uri generation buffer reportText findFile
      let snapshot' := build uri generation buffer reportText findFile'
      (report.files.map (·.index)).Nodup → report.mainFile? = some main → main.isSystem = false →
      ∃ l l', snapshot.mainFile? = some l ∧ snapshot'.mainFile? = some l' ∧
        l.rows.map (·.raw) = Source.lines buffer ∧ l'.rows.map (·.raw) = Source.lines buffer ∧
        ∀ line, snapshot.catalogue.forest.chain (snapshot.scopeAt line) =
          snapshot'.catalogue.forest.chain (snapshot'.scopeAt line)) := by
  constructor
  · intro f file text comments alone run
    have hrun : run = (alone.1.relocate f.size, f.extend alone.2) :=
      Scope.survey_relocate f ⟨file, text, comments⟩
    rw [hrun]
    refine ⟨rfl, ?_, ?_, rfl⟩
    · intro id hid
      exact Scope.Forest.node?_extend_of_lt alone.2 hid
    · intro id hid
      exact Scope.Forest.node?_extend_relocate f alone.2 hid
  · intro uri generation buffer reportText findFile findFile' main report snapshot snapshot'
      hdistinct hmain hlisted
    obtain ⟨l, hl, hraw, hchain⟩ :=
      ofReport_main uri generation buffer findFile hdistinct hmain hlisted
    obtain ⟨l', hl', hraw', hchain'⟩ :=
      ofReport_main uri generation buffer findFile' hdistinct hmain hlisted
    refine ⟨l, l', hl, hl', hraw, hraw', ?_⟩
    intro line
    exact (hchain line).trans (hchain' line).symm

/-- A report with an imported file in front of the one that holds the buffer. -/
def importingReport : Text :=
  "[Files]\n0;/a.asm\n1;/tmp/kickass-analyzer-1/.kickass-analyzer.source.1.asm\n".toList

/-- The imported file opens a scope, so the scope of the buffer gets another number when the file
can be read. -/
def imported (path : Text) : Option Text :=
  if path = "/a.asm".toList then some "x: \x7b".toList else none

theorem files_isolated_importing :
    let uri : Uri := ⟨"file".toList, some {}, .rooted ["b".toList], none, none⟩
    let buffer := ".macro m() \x7b\n nop".toList
    let snapshot := build uri 1 buffer importingReport imported
    let snapshot' := build uri 1 buffer importingReport fun _ => none
    snapshot.scopeAt 1 = 2 ∧ snapshot'.scopeAt 1 = 1 ∧
    snapshot.catalogue.forest.chain (snapshot.scopeAt 1) =
      [some ("m".toList, .macroBody, 0), none] ∧
    snapshot.catalogue.forest.chain (snapshot.scopeAt 1) =
      snapshot'.catalogue.forest.chain (snapshot'.scopeAt 1) := by
  intro uri buffer snapshot snapshot'
  obtain ⟨hscope, hscope', hchain⟩ : snapshot.scopeAt 1 = 2 ∧ snapshot'.scopeAt 1 = 1 ∧
      snapshot.catalogue.forest.chain 2 = [some ("m".toList, .macroBody, 0), none] := by
    decide +kernel
  obtain ⟨_, _, _, _, _, _, hsame⟩ := files_isolated.2 uri 1 buffer importingReport imported
    (fun _ => none)
    (SourceFile.ofPath SourceFile.bufferMarker 1
      "/tmp/kickass-analyzer-1/.kickass-analyzer.source.1.asm".toList)
    (by decide +kernel) (by decide +kernel) (by decide +kernel)
  exact ⟨hscope, hscope', hscope ▸ hchain, hsame 1⟩

end Snapshot

end AsmLens
