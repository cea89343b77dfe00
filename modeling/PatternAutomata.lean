import PatternAutomata.Comparison
import PatternAutomata.Dfa.Session
import PatternAutomata.Events
import PatternAutomata.Language
import PatternAutomata.Proofs.DepthFirst
import PatternAutomata.Proofs.Path
import PatternAutomata.Proofs.Built
import PatternAutomata.Proofs.Search
import PatternAutomata.Proofs.RecursiveSearch
import PatternAutomata.Proofs.Numbering
import PatternAutomata.Proofs.Labels
import PatternAutomata.Proofs.Determinization
import PatternAutomata.Proofs.Crossings
import PatternAutomata.Proofs.Edits
import PatternAutomata.Proofs.Territory
import PatternAutomata.Proofs.Combinators
import PatternAutomata.Proofs.Compilation
import PatternAutomata.Proofs.Regular
import PatternAutomata.Proofs.Linear
import PatternAutomata.Proofs.Offences
import PatternAutomata.Proofs.Compiled
import PatternAutomata.Proofs.FirstOffence
import PatternAutomata.Proofs.Renaming
import PatternAutomata.Proofs.Separation
import PatternAutomata.Proofs.Dangling
import PatternAutomata.Proofs.Renumbering
import PatternAutomata.Proofs.Reloading
import PatternAutomata.Proofs.Skipping
import PatternAutomata.Proofs.Simulation
import PatternAutomata.Proofs.LiveStates
import PatternAutomata.Proofs.RowLanguages
import PatternAutomata.Proofs.PlainTrees
import PatternAutomata.Proofs.ReaderSteps
import PatternAutomata.Proofs.Cursors
import PatternAutomata.Proofs.Spelling
import PatternAutomata.Proofs.Reading
import PatternAutomata.Proofs.Rendering
import PatternAutomata.Proofs.Embedding
import PatternAutomata.Proofs.Composition
import PatternAutomata.Proofs.Places
import PatternAutomata.Proofs.Settings
import PatternAutomata.Proofs.Outcomes
import PatternAutomata.Proofs.Expansion
import PatternAutomata.Proofs.Tabulation
import PatternAutomata.Proofs.Bystanders
import PatternAutomata.Proofs.Joints
import PatternAutomata.Proofs.Flattening
import PatternAutomata.Proofs.Stacking
import PatternAutomata.Proofs.Nullable
import PatternAutomata.Proofs.Trim
import PatternAutomata.Proofs.Literals
import PatternAutomata.Proofs.Quantifiers
import PatternAutomata.Proofs.StackLoop
import PatternAutomata.Proofs.WaitingLabels
import PatternAutomata.Proofs.SearchLoop
import PatternAutomata.Proofs.Preorders
import PatternAutomata.Proofs.Closures
import PatternAutomata.Proofs.EdgeOrder
import PatternAutomata.Proofs.Delimiting
import PatternAutomata.Proofs.Displays
