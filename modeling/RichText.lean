import RichText.Session.Calls
import RichText.Proofs.Content.Declarations
import RichText.Proofs.Content.Expansion
import RichText.Proofs.Content.LinkPieces
import RichText.Proofs.Content.Links
import RichText.Proofs.Content.Paragraphs
import RichText.Proofs.Content.PlainText
import RichText.Proofs.Content.Templates
import RichText.Proofs.Heap.Walks
import RichText.Proofs.Substitution.Ancestors
import RichText.Proofs.Substitution.Contexts
import RichText.Proofs.Substitution.EmptyKeys
import RichText.Proofs.Substitution.Histories
import RichText.Proofs.Substitution.Markup
import RichText.Proofs.Substitution.Moved
import RichText.Proofs.Substitution.Relaxing
import RichText.Proofs.Substitution.Rooted
import RichText.Proofs.Substitution.Watched
import RichText.Proofs.Substitution.Wrapping
