import Bindery.Proofs.Markdown.Environments
import Bindery.Proofs.Markdown.Runs

namespace Bindery.Markdown

open Latex

/-! A text converted under both heading modes. The two conversions have the same lines but for the
star behind `\chapter`. -/

/-- What the two modes write for a stretch, line by line. -/
inductive Stretch.PrintsBoth : Stretch → List (Line × Line) → Prop
  | chapter {title : List Char} (hsome : title ≠ []) :
      PrintsBoth (.single ("# ".toList ++ title))
        [(.text (command "chapter" (inlineLatex title)),
          .text (command "chapter*" (inlineLatex title)))]
  | same {stretch : Stretch} (lines : List Line)
      (hother : ∀ title, title ≠ [] → stretch ≠ .single ("# ".toList ++ title)) :
      PrintsBoth stretch (lines.map fun line => (line, line))

theorem Block.lines_congr {block : Block} (hblock : ∀ title, block ≠ .heading .chapter title) :
    block.lines .unnumbered = block.lines .numbered := by
  cases block with
  | heading level title =>
      cases level with
      | chapter => exact absurd rfl (hblock title)
      | sect | subsection | subsubsection => rfl
  | listing | rule | item | paragraph => rfl

theorem ofLine_eq_chapter {line title : List Char} :
    Block.ofLine line = .heading .chapter title ↔ title ≠ [] ∧ line = "# ".toList ++ title := by
  constructor
  · intro hblock
    have hheading : heading? line = some (.chapter, title) := by
      unfold Block.ofLine at hblock
      split at hblock
      · rename_i level found hfound
        obtain ⟨rfl, rfl⟩ := Block.heading.inj hblock
        exact hfound
      · split at hblock
        · contradiction
        · split at hblock <;> contradiction
    obtain ⟨depth, hdepth, -, -, hsome, rfl⟩ := heading?_eq_some.1 hheading
    obtain rfl : depth = 1 := by
      unfold HeadingLevel.ofDepth? at hdepth
      split at hdepth <;> simp_all
    exact ⟨hsome, rfl⟩
  · rintro ⟨hsome, rfl⟩
    have hshape : IsHeading 1 title ("# ".toList ++ title) := ⟨by decide, by decide, hsome, rfl⟩
    exact hshape.ofLine rfl

theorem Stretch.exists_printsBoth (stretch : Stretch) :
    ∃ pairs, stretch.PrintsBoth pairs ∧ pairs.map Prod.fst = stretch.block.lines .numbered ∧
      pairs.map Prod.snd = stretch.block.lines .unnumbered := by
  by_cases hchapter : ∃ title, title ≠ [] ∧ stretch = .single ("# ".toList ++ title)
  · obtain ⟨title, hsome, rfl⟩ := hchapter
    refine ⟨_, .chapter hsome, ?_⟩
    rw [Stretch.block, ofLine_eq_chapter.2 ⟨hsome, rfl⟩]
    exact ⟨rfl, rfl⟩
  · have hother : ∀ title, title ≠ [] → stretch ≠ .single ("# ".toList ++ title) :=
      fun title hsome hstretch => hchapter ⟨title, hsome, hstretch⟩
    have hblock : ∀ title, stretch.block ≠ .heading .chapter title := by
      intro title hblock
      cases stretch with
      | fenced => contradiction
      | single line =>
          obtain ⟨hsome, rfl⟩ := ofLine_eq_chapter.1 hblock
          exact hother title hsome rfl
    refine ⟨_, .same (stretch.block.lines .numbered) hother, ?_, ?_⟩
    · exact (List.map_map ..).trans (List.map_id _)
    · rw [Block.lines_congr hblock]
      exact (List.map_map ..).trans (List.map_id _)

theorem exists_printsBoth (stretches : List Stretch) :
    ∃ written, List.Forall₂ Stretch.PrintsBoth stretches written ∧
      written.flatten.map Prod.fst = stretches.flatMap (·.block.lines .numbered) ∧
        written.flatten.map Prod.snd = stretches.flatMap (·.block.lines .unnumbered) := by
  induction stretches with
  | nil => exact ⟨[], .nil, rfl, rfl⟩
  | cons stretch stretches ih =>
      obtain ⟨pairs, hpairs, hfirst, hsecond⟩ := stretch.exists_printsBoth
      obtain ⟨written, hwritten, hnumbered, hunnumbered⟩ := ih
      refine ⟨pairs :: written, .cons hpairs hwritten, ?_, ?_⟩
      · rw [List.flatten_cons, List.map_append, hfirst, hnumbered, List.flatMap_cons]
      · rw [List.flatten_cons, List.map_append, hsecond, hunnumbered, List.flatMap_cons]

/-- Two lines at one position: the same line, or the two forms of a chapter's header. -/
def IsStarred (pair : List Char × List Char) : Prop :=
  pair.1 = pair.2 ∨ ∃ title, pair = (command "chapter" title, command "chapter*" title)

theorem Stretch.PrintsBoth.of_mem {stretch : Stretch} {pairs : List (Line × Line)}
    (hprints : stretch.PrintsBoth pairs) {pair : Line × Line} (hpair : pair ∈ pairs) :
    pair.1.isItem = pair.2.isItem ∧ IsStarred (pair.map Line.content Line.content) := by
  cases hprints with
  | chapter hsome =>
      obtain rfl := List.mem_singleton.1 hpair
      exact ⟨rfl, .inr ⟨_, rfl⟩⟩
  | same lines hother =>
      obtain ⟨line, -, rfl⟩ := List.mem_map.1 hpair
      exact ⟨rfl, .inl rfl⟩

theorem of_mem_printsBoth {stretches : List Stretch} {written : List (List (Line × Line))}
    (hwritten : List.Forall₂ Stretch.PrintsBoth stretches written) :
    ∀ pair ∈ written.flatten,
      pair.1.isItem = pair.2.isItem ∧ IsStarred (pair.map Line.content Line.content) := by
  induction hwritten with
  | nil => simp
  | cons hpairs _ ih =>
      intro pair hpair
      rw [List.flatten_cons] at hpair
      rcases List.mem_append.1 hpair with hpair | hpair
      · exact hpairs.of_mem hpair
      · exact ih pair hpair

/-! Lists stand at the same positions, since they only depend on which lines are items. -/

theorem exists_itemizeFrom_pairs {pairs : List (Line × Line)}
    (hpairs : ∀ pair ∈ pairs,
      pair.1.isItem = pair.2.isItem ∧ IsStarred (pair.map Line.content Line.content))
    (isOpen : Bool) :
    ∃ latex : List (List Char × List Char),
      itemizeFrom isOpen (pairs.map Prod.fst) = latex.map Prod.fst ∧
      itemizeFrom isOpen (pairs.map Prod.snd) = latex.map Prod.snd ∧
      (∀ pair ∈ latex, IsStarred pair) ∧
      latex.filter (fun pair => pair.1 ≠ pair.2) =
        (pairs.map (Prod.map Line.content Line.content)).filter fun pair => pair.1 ≠ pair.2 := by
  induction pairs generalizing isOpen with
  | nil =>
      refine ⟨(listBorder isOpen false).map fun line => (line, line), ?_⟩
      simp [itemizeFrom_nil, IsStarred, Function.comp_def, List.filter_eq_nil_iff]
  | cons pair pairs ih =>
      obtain ⟨⟨hkind, hstarred⟩, hpairs⟩ := List.forall_mem_cons.1 hpairs
      obtain ⟨latex, hfirst, hsecond, hall, hstars⟩ := ih hpairs pair.1.isItem
      -- What stands in front of the pair is the same twice, since the pair is of one kind.
      refine ⟨(listBorder isOpen pair.1.isItem).map (fun line => (line, line)) ++
        pair.map Line.content Line.content :: latex, ?_, ?_, ?_, ?_⟩
      · simp [itemizeFrom_cons, hfirst, Function.comp_def]
      · simp [itemizeFrom_cons, ← hkind, hsecond, Function.comp_def]
      · simp only [List.mem_append, List.mem_map, List.mem_cons]
        rintro _ (⟨line, -, rfl⟩ | rfl | hpair)
        · exact .inl rfl
        · exact hstarred
        · exact hall _ hpair
      · have hborder : ((listBorder isOpen pair.1.isItem).map fun line => (line, line)).filter
            (fun pair => pair.1 ≠ pair.2) = [] := by
          simp [List.filter_eq_nil_iff]
        rw [List.filter_append, hborder, List.nil_append, List.map_cons, List.filter_cons, hstars,
          List.filter_cons]

/-! The two forms of a chapter's header do the same to every environment. -/

theorem infix_append_brace_iff (front : List Char) {c : Char} (hc : c ≠ '\x7d')
    (text : List Char) : front ++ [c] <:+: text ++ ['\x7d'] ↔ front ++ [c] <:+: text := by
  rw [List.infix_concat_iff, or_iff_right]
  intro hsuffix
  obtain hnil | ⟨before, hlast, -⟩ := List.suffix_concat_iff.1 hsuffix
  · simp at hnil
  · exact hc (List.append_inj' hlast rfl |>.2 |> List.head_eq_of_cons_eq)

/-- What begins with another character than any of those in front stands behind them. -/
theorem infix_behind_iff {c : Char} {front : List Char} (hfront : c ∉ front)
    (letters text : List Char) : c :: letters <:+: front ++ text ↔ c :: letters <:+: text := by
  induction front with
  | nil => rfl
  | cons d front ih =>
      rw [List.cons_append, List.infix_cons_iff, ih (List.not_mem_of_not_mem_cons hfront),
        or_iff_right]
      exact fun hprefix =>
        List.ne_of_not_mem_cons hfront (List.cons_prefix_cons.1 hprefix).1

/-- What begins with a backslash and a letter other than the command's stands in the argument. -/
theorem infix_chapter_iff {c d : Char} {front : List Char} (hc : c ≠ 'c') (hd : d ≠ '\x7d')
    {name : String} (hname : name = "chapter" ∨ name = "chapter*") (title : List Char) :
    '\\' :: c :: front ++ [d] <:+: command name title ↔
      '\\' :: c :: front ++ [d] <:+: title := by
  obtain ⟨word, hword, hslash⟩ : ∃ word, name.toList = 'c' :: word ∧
      '\\' ∉ 'c' :: word ++ ['\x7b'] := by
    obtain rfl | rfl := hname
    · exact ⟨"hapter".toList, rfl, by decide⟩
    · exact ⟨"hapter*".toList, rfl, by decide⟩
  have hcommand : command name title =
      '\\' :: (('c' :: word ++ ['\x7b']) ++ (title ++ ['\x7d'])) := by
    simp [command, group, hword]
  have hhere : ¬ '\\' :: c :: front ++ [d] <+: command name title := by
    rw [hcommand]
    exact fun hprefix => hc (List.cons_prefix_cons.1 (List.cons_prefix_cons.1 hprefix).2).1
  rw [hcommand] at hhere ⊢
  rw [List.infix_cons_iff, or_iff_right hhere]
  exact (infix_behind_iff hslash _ _).trans (infix_append_brace_iff ('\\' :: c :: front) hd title)

theorem Environment.next?_of_opens {c : Char} {line : List Char} (hopens : Opens c line)
    (hc : c ∉ ['b', 'e', 'i']) (environment : Environment) :
    environment.next? line =
      match environment with
      | .outside _ => some (.outside false)
      | .list _ => none
      | .listing =>
          if "\\begin\x7b".toList <:+: line ∨ "\\end\x7b".toList <:+: line then none
          else some .listing := by
  have hb : ¬ Opens 'b' line := fun hother => hc (hopens.unique hother ▸ by simp)
  have he : ¬ Opens 'e' line := fun hother => hc (hopens.unique hother ▸ by simp)
  have hlist : line ≠ listEnd := fun hline => he (hline ▸ opens_listEnd)
  have hlisting : line ≠ listingEnd := fun hline => he (hline ▸ opens_listingEnd)
  have hitem : isItemLine line = false :=
    isItemLine_of_opens hopens fun hi => hc (hi ▸ by simp)
  cases environment with
  | outside afterList =>
      exact next?_plain (fun d hd => hopens.unique hd ▸ hc) afterList
  | list hasItem => simp [next?, hlist, hitem]
  | listing =>
      -- The two texts stay folded: they are not to be written out letter by letter.
      rw [next?, if_neg hlisting, hitem]
      simp only [Bool.false_eq_true, or_false]

theorem IsStarred.next?_eq {pair : List Char × List Char} (hpair : IsStarred pair)
    (environment : Environment) : environment.next? pair.1 = environment.next? pair.2 := by
  obtain hsame | ⟨title, rfl⟩ := hpair
  · rw [hsame]
  have hnumbered : Opens 'c' (command "chapter" title) := ⟨_, rfl⟩
  have hunnumbered : Opens 'c' (command "chapter*" title) := ⟨_, rfl⟩
  have hbegin {name : String} (hname : name = "chapter" ∨ name = "chapter*") :=
    @infix_chapter_iff 'b' '\x7b' "egin".toList (by decide) (by decide) name hname title
  have hend {name : String} (hname : name = "chapter" ∨ name = "chapter*") :=
    @infix_chapter_iff 'e' '\x7b' "nd".toList (by decide) (by decide) name hname title
  rw [Environment.next?_of_opens hnumbered (by decide),
    Environment.next?_of_opens hunnumbered (by decide)]
  cases environment with
  | outside | list => rfl
  | listing =>
      have hnumbered := or_congr (hbegin (.inl rfl)) (hend (.inl rfl))
      have hunnumbered := or_congr (hbegin (.inr rfl)) (hend (.inr rfl))
      exact if_congr (hnumbered.trans hunnumbered.symm) rfl rfl

theorem Environment.run_congr {pairs : List (List Char × List Char)}
    (hpairs : ∀ pair ∈ pairs, IsStarred pair) (environment : Environment) :
    environment.run (pairs.map Prod.fst) = environment.run (pairs.map Prod.snd) := by
  induction pairs generalizing environment with
  | nil => rfl
  | cons pair pairs ih =>
      obtain ⟨hpair, hpairs⟩ := List.forall_mem_cons.1 hpairs
      rw [List.map_cons, List.map_cons, run_cons, run_cons, hpair.next?_eq]
      exact congrArg _ (funext fun next => ih hpairs next)

/-- The mode decides about the star behind `\chapter` and about nothing else. Line by line the two
conversions are equal but for the level-one headers outside all fenced blocks, and the same lists
and listings are open in front of every line. -/
theorem headingMode_star (markdown : List Char) :
    ∃ stretches written, (∀ other, IsCut (sourceLines markdown) other ↔ other = stretches) ∧
      List.Forall₂ Stretch.PrintsBoth stretches written ∧
      fragmentLines .numbered markdown = written.flatten.map Prod.fst ∧
      fragmentLines .unnumbered markdown = written.flatten.map Prod.snd ∧
      (∀ pair ∈ written.flatten, pair.1.isItem = pair.2.isItem) ∧
      ∃ latex : List (List Char × List Char),
        (fragmentLatex .numbered markdown).splitOn '\n' = latex.map Prod.fst ∧
        (fragmentLatex .unnumbered markdown).splitOn '\n' = latex.map Prod.snd ∧
        latex.filter (fun pair => pair.1 ≠ pair.2) =
          (written.flatten.map (Prod.map Line.content Line.content)).filter
            (fun pair => pair.1 ≠ pair.2) ∧
        ∀ count, (Environment.outside false).run ((latex.map Prod.fst).take count) =
          (Environment.outside false).run ((latex.map Prod.snd).take count) := by
  obtain ⟨stretches, hcut⟩ := exists_isCut (sourceLines markdown)
  obtain ⟨written, hwritten, hnumbered, hunnumbered⟩ := exists_printsBoth stretches
  have hpairs := of_mem_printsBoth hwritten
  have hlines (mode : HeadingMode) :
      fragmentLines mode markdown = stretches.flatMap (·.block.lines mode) := by
    rw [fragmentLines, hcut.ofLines, List.flatMap_map]
  obtain ⟨latex, hfirst, hsecond, hall, hstars⟩ := exists_itemizeFrom_pairs hpairs false
  refine ⟨stretches, written, fun other => ⟨fun hother => hother.unique hcut, ?_⟩, hwritten,
    (hlines _).trans hnumbered.symm, (hlines _).trans hunnumbered.symm,
    fun pair hpair => (hpairs pair hpair).1, latex, ?_, ?_, hstars, fun count => ?_⟩
  · rintro rfl
    exact hcut
  · rw [splitOn_fragmentLatex, hlines, ← hnumbered]
    exact hfirst
  · rw [splitOn_fragmentLatex, hlines, ← hunnumbered]
    exact hsecond
  · rw [← List.map_take, ← List.map_take]
    exact Environment.run_congr (fun pair hpair => hall pair (List.mem_of_mem_take hpair)) _

end Bindery.Markdown
