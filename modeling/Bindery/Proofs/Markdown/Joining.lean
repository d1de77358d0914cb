import Bindery.Proofs.Markdown.Comments
import Bindery.Proofs.Markdown.Stretches

namespace Bindery.Markdown

/-! Two texts joined by a line feed. Where neither a line end nor a comment nor a fenced block of
the first one reaches into the second, each is converted as if it stood alone. -/

theorem sourceLines_append {first : List Char} (hreturn : first.getLast? ≠ some '\r')
    (hcomment : ¬ commentStart <:+: stripComments (unifyLineEnds first)) (second : List Char) :
    sourceLines (first ++ '\n' :: second) = sourceLines first ++ sourceLines second := by
  have hunified : unifyLineEnds (first ++ '\n' :: second) =
      unifyLineEnds first ++ '\n' :: unifyLineEnds second := by
    rw [unifyLineEnds_append fun hlast => absurd hlast hreturn, unifyLineEnds]
    simp
  have hstripped : stripComments (unifyLineEnds (first ++ '\n' :: second)) =
      stripComments (unifyLineEnds first) ++ '\n' :: stripComments (unifyLineEnds second) := by
    rw [hunified, stripComments_append hcomment (by simp), stripComments_kept rfl]
  rw [sourceLines, hstripped, List.splitOn_append_cons_self]
  rfl

/-- Every line that is read as the opening of a fenced block has its closing line. -/
def ClosesFences (lines : List (List Char)) : Prop :=
  ∃ stretches, IsCut lines stretches ∧
    ∀ line, .single line ∈ stretches → ∀ tag, ¬ IsOpening tag line

theorem IsCut.append {first second : List (List Char)} {stretches others : List Stretch}
    (hfirst : IsCut first stretches)
    (hclosed : ∀ line, .single line ∈ stretches → ∀ tag, ¬ IsOpening tag line)
    (hsecond : IsCut second others) : IsCut (first ++ second) (stretches ++ others) := by
  induction hfirst with
  | nil => exact hsecond
  | fenced hopening hcode hclosing _ ih =>
      have htail := ih fun line hline => hclosed line (List.mem_cons_of_mem _ hline)
      simpa using IsCut.fenced hopening hcode hclosing htail
  | @single line lines stretches _ _ ih =>
      have htail := ih fun line hline => hclosed line (List.mem_cons_of_mem _ hline)
      have hplain := hclosed line List.mem_cons_self
      exact .single (fun tag hopening => absurd hopening (hplain tag)) htail

theorem Block.ofLines_append {first : List (List Char)} (hfirst : ClosesFences first)
    (second : List (List Char)) :
    Block.ofLines (first ++ second) = Block.ofLines first ++ Block.ofLines second := by
  obtain ⟨stretches, hcut, hclosed⟩ := hfirst
  obtain ⟨others, hother⟩ := exists_isCut second
  rw [(hcut.append hclosed hother).ofLines, List.map_append, hcut.ofLines, hother.ofLines]

/-- A text that ends its comments and closes its fences is converted on its own, whatever follows it
on the next line. -/
theorem fragmentLines_append (mode : HeadingMode) {first : List Char}
    (hreturn : first.getLast? ≠ some '\r')
    (hcomment : ¬ commentStart <:+: stripComments (unifyLineEnds first))
    (hfences : ClosesFences (sourceLines first)) (second : List Char) :
    fragmentLines mode (first ++ '\n' :: second) =
      fragmentLines mode first ++ fragmentLines mode second := by
  rw [fragmentLines, sourceLines_append hreturn hcomment, Block.ofLines_append hfences,
    List.flatMap_append]
  rfl

/-- What follows closes nothing, ends no comment and may leave one open. -/
theorem fragmentLines_append_stray :
    let first := "a<!--\n```\r\n-->\n```rust\r\nx\n ```".toList
    let second := "```\n--> <!--".toList
    first.getLast? ≠ some '\r' ∧ ¬ commentStart <:+: stripComments (unifyLineEnds first) ∧
      ClosesFences (sourceLines first) ∧
        fragmentLines .numbered (first ++ '\n' :: second) =
          fragmentLines .numbered first ++ fragmentLines .numbered second := by
  intro first second
  have hcomment : findComment? "<!--\n```\n-->\n```rust\nx\n ```".toList =
      some ((), "\n```rust\nx\n ```".toList) := by decide
  have hstripped : stripComments (unifyLineEnds first) = "a\n```rust\nx\n ```".toList := by
    change stripComments ('a' :: "<!--\n```\n-->\n```rust\nx\n ```".toList) = _
    rw [stripComments_kept rfl, stripComments_found hcomment]
    simp [stripComments_kept, findComment?]
  have hlines : sourceLines first = ["a".toList, "```rust".toList, "x".toList, " ```".toList] := by
    rw [sourceLines, hstripped]
    decide
  have hreturn : first.getLast? ≠ some '\r' := by decide
  have hinside : ¬ commentStart <:+: stripComments (unifyLineEnds first) := by
    rw [hstripped]
    decide
  have hfences : ClosesFences (sourceLines first) := by
    have hplain : ∀ tag, ¬ IsOpening tag "a".toList := by
      intro tag hopening
      have hnone : fenceLanguage? "a".toList = none := by decide
      rw [fenceLanguage?_eq_some.2 hopening] at hnone
      contradiction
    have hopening : IsOpening "rust".toList "```rust".toList :=
      fenceLanguage?_eq_some.1 (by decide)
    have hcode : ∀ line ∈ ["x".toList], ¬ IsClosing line := by
      simpa using isFenceEnd_eq_false.1 (show isFenceEnd "x".toList = false by decide)
    have hclosing : IsClosing " ```".toList := isFenceEnd_eq_true.1 (by decide)
    rw [hlines]
    refine ⟨_, .single (fun tag hother => absurd hother (hplain tag))
      (.fenced hopening hcode hclosing .nil), ?_⟩
    intro line hline tag hother
    obtain rfl : line = "a".toList := by simpa using hline
    exact hplain tag hother
  exact ⟨hreturn, hinside, hfences, fragmentLines_append .numbered hreturn hinside hfences second⟩

end Bindery.Markdown
