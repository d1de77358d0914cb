import Bindery.Book.Build
import Bindery.Book.Shelf
import Bindery.CommandLine.Run
import Bindery.Main
import Bindery.Markdown.Tree
import Bindery.Proofs.Markdown.Shown
import Bindery.Proofs.Markdown.Patterns
import Bindery.Proofs.Markdown.Passes
import Bindery.Proofs.Markdown.SourceTree
import Bindery.Proofs.Markdown.Outline
import Bindery.Proofs.Markdown.Environments
import Bindery.Proofs.Markdown.Listings
import Bindery.Proofs.Markdown.Renaming
import Bindery.Proofs.Markdown.Comments
import Bindery.Proofs.Markdown.Joining
import Bindery.Proofs.Markdown.Opaque
import Bindery.Proofs.Markdown.Runs
import Bindery.Proofs.Markdown.HeadingModes
import Bindery.Proofs.Latex.TextEscape
import Bindery.Proofs.Book.Description
import Bindery.Proofs.Book.Balance
import Bindery.Proofs.Book.Skeleton
import Bindery.Proofs.Book.PartHeaders
import Bindery.Proofs.Book.Confinement
import Bindery.Proofs.Book.TitlePage
import Bindery.Proofs.Book.ShelfOnDisk
import Bindery.Proofs.Book.Issues
import Bindery.Proofs.Book.Rebuild
import Bindery.Proofs.Book.ManifestRearranged
import Bindery.Proofs.CommandLine.Validation
import Bindery.Proofs.Markdown.LineEnds
import Bindery.Proofs.Markdown.Resolving
import Bindery.Proofs.Markdown.Blankness
import Bindery.Proofs.Book.ChapterTitles
import Bindery.Proofs.Book.ManifestNumbers
