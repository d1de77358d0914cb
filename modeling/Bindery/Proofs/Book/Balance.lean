import Bindery.Proofs.Book.Composition
import Bindery.Proofs.Latex.Braces

namespace Bindery

open Latex Markdown

/-! Every document is balanced in its braces, whatever its titles and fragments hold. -/

theorem isBalanced_escapeText (text : String) : IsBalanced (escapeText text).toList := by
  rw [toList_escapeText]
  exact composes_isBalanced.escape text.toList

theorem isBalanced_toList_braced {text : String} (htext : IsBalanced text.toList) :
    IsBalanced (braced text).toList := by
  have hgroup := htext.group
  simpa [braced, group] using hgroup

theorem isBalanced_titleLines (manifest : Manifest) :
    IsBalanced (writtenLines (titleLines manifest)) := by
  have hfield {name field : String} (hname : IsBalanced name.toList)
      (hvalue : IsBalanced field.toList) : IsBalanced (name ++ braced field).toList := by
    rw [String.toList_append]
    exact hname.append (isBalanced_toList_braced hvalue)
  have hversion : IsBalanced ("Version " ++ escapeText manifest.version).toList := by
    rw [String.toList_append]
    exact IsBalanced.append (by decide) (isBalanced_escapeText manifest.version)
  refine composes_writtenLines composes_isBalanced fun line hline => ?_
  simp only [titleLines, List.mem_cons, List.not_mem_nil, or_false] at hline
  rcases hline with rfl | rfl | rfl
  · exact hfield (by decide) (isBalanced_escapeText manifest.title)
  · exact hfield (by decide) (isBalanced_escapeText manifest.author)
  · exact hfield (by decide) hversion

theorem isBalanced_preamble (manifest : Manifest) :
    IsBalanced (({} : PageSettings).preamble manifest).toList := by
  have hpackages : braceDepth? 0 (writtenLines packageLines) = some 1 := by decide +kernel
  have hlisting : braceDepth? 1 (writtenLines listingLines) = some 0 := by decide +kernel
  have hopening : IsBalanced (writtenLines openingLines) := by decide +kernel
  have hmetadata := braceDepth?_add (composes_metadataLines composes_isBalanced manifest) 1
  have htitle := isBalanced_titleLines manifest
  rw [toList_preamble]
  simp only [List.append_assoc]
  calc braceDepth? 0 (writtenLines packageLines ++ (writtenLines (metadataLines manifest) ++
          (writtenLines listingLines ++
            (writtenLines (titleLines manifest) ++ writtenLines openingLines))))
      = braceDepth? 1 (writtenLines (metadataLines manifest) ++ (writtenLines listingLines ++
          (writtenLines (titleLines manifest) ++ writtenLines openingLines))) :=
        braceDepth?_append hpackages _
    _ = braceDepth? 1 (writtenLines listingLines ++
          (writtenLines (titleLines manifest) ++ writtenLines openingLines)) :=
        braceDepth?_append hmetadata _
    _ = braceDepth? 0 (writtenLines (titleLines manifest) ++ writtenLines openingLines) :=
        braceDepth?_append hlisting _
    _ = some 0 := htitle.append hopening

theorem isBalanced_partHeader (part : Part) : IsBalanced (partHeader part).toList := by
  have hname : IsBalanced ('\\' :: "part".toList) := by decide
  have htitle := (composes_isBalanced.escape part.title.toList).group
  have hheader := (hname.append htitle).append (show IsBalanced "\n\n".toList by decide)
  simpa [partHeader, command] using hheader

theorem isBalanced_heading (parts : PartMap) (earlier : List Chapter) (chapter : Chapter) :
    IsBalanced (parts.heading earlier chapter).toList := by
  cases hpart : parts.lookup chapter.number with
  | none =>
      rw [PartMap.heading_of_none hpart]
      rfl
  | some part =>
      rw [PartMap.heading_of_some hpart]
      split
      · rfl
      · exact isBalanced_partHeader part

section Source

variable {source : FragmentSource}
  (hsource : source.SafeUrls codeReserved)

include hsource

theorem isBalanced_mainPortion (manifest : Manifest) :
    IsBalanced (manifest.mainPortion source).text.toList := by
  refine composes_total composes_isBalanced fun portion hportion => ?_
  obtain ⟨⟨chapter, index⟩, _, rfl⟩ := List.mem_map.1 hportion
  have hheading := isBalanced_heading manifest.partMap (manifest.chapters.take index) chapter
  have hchapter := composes_chapterPortion composes_isBalanced hsource chapter
  simpa [Portion.under] using hheading.append hchapter

theorem isBalanced_assemble (manifest : Manifest) :
    IsBalanced (assemble {} manifest source).text.toList := by
  have hfront : IsBalanced (manifest.frontPortion source).text.toList :=
    composes_matter composes_isBalanced hsource .frontMatter manifest.printedFrontMatter
  have hback : IsBalanced (manifest.backPortion source).text.toList :=
    composes_matter composes_isBalanced hsource .backMatter manifest.backMatter
  have hmain := isBalanced_mainPortion hsource manifest
  rw [text_assemble]
  simp only [String.toList_append]
  refine IsBalanced.append (.append (.append (.append ?_ ?_) ?_) ?_) ?_
  · exact isBalanced_preamble manifest
  · exact IsBalanced.append (by decide) hfront
  · exact IsBalanced.append (by decide) hmain
  · exact IsBalanced.append (by decide) hback
  · decide

end Source

/-- Neither a document nor a single fragment closes a brace that is not open, leaves one open, or
ends behind a backslash, whatever the titles, the code and the running text hold outside urls. -/
theorem braces_balanced :
    (∀ (manifest : Manifest) (source : FragmentSource), source.SafeUrls codeReserved →
        IsBalanced (assemble {} manifest source).text.toList) ∧
      ∀ (mode : HeadingMode) (markdown : List Char), Markdown.SafeUrls codeReserved markdown →
        IsBalanced (fragmentLatex mode markdown) := by
  constructor
  · intro manifest source hsource
    exact isBalanced_assemble hsource manifest
  · intro mode markdown hmarkdown
    exact composes_fragmentLatex composes_isBalanced mode hmarkdown

theorem braces_balanced_hostile :
    let markdown := "# On \x7bsets\n- \x7d [*a* \\](https://x.io)\n```\n\\end\x7b\x7d\x7d\n```"
    let manifest : Manifest :=
      { title := "50% \x7boff\\", author := "\x7d", version := "\\", frontMatter := [⟨"a.md"⟩]
        parts := [⟨1, "\x7d\x7b", [1]⟩], chapters := [⟨1, "b.md", none⟩], backMatter := [] }
    Markdown.SafeUrls codeReserved markdown.toList ∧
      IsBalanced (assemble {} manifest ⟨fun _ _ => .ok (some markdown)⟩).text.toList ∧
      IsBalanced (fragmentLatex .numbered markdown.toList) := by
  intro markdown manifest
  have hsafe : Markdown.SafeUrls codeReserved markdown.toList := by decide +kernel
  refine ⟨hsafe, braces_balanced.1 manifest _ ?_, braces_balanced.2 .numbered _ hsafe⟩
  intro place file text hfetch
  obtain rfl := Option.some.inj (Except.ok.inj hfetch)
  exact hsafe

end Bindery
