import PathQuery.Main
import PathQuery.Session.Operation
import PathQuery.Session.Script
import PathQuery.Proofs.Dictionary
import PathQuery.Proofs.Relation.Expansion
import PathQuery.Proofs.Relation.Walk
import PathQuery.Proofs.Relation.RootedTree
import PathQuery.Proofs.Grammar
import PathQuery.Proofs.Renaming
import PathQuery.Proofs.Condition.Formula
import PathQuery.Proofs.Condition.Meaning
import PathQuery.Proofs.Relation.Paths
import PathQuery.Proofs.Substitution
import PathQuery.Proofs.Statement.Assembly
import PathQuery.Proofs.Statement.Substitution
import PathQuery.Proofs.Placeholders
import PathQuery.Proofs.Statement.Placeholders
import PathQuery.Proofs.Relation.Recall
import PathQuery.Proofs.Relation.Direction
import PathQuery.Proofs.Statement.Change
import PathQuery.Proofs.Steps
import PathQuery.Proofs.Rereading
import PathQuery.Proofs.Erasure
import PathQuery.Proofs.Condition.Parallel
import PathQuery.Proofs.Statement.Parallel
import PathQuery.Proofs.Statement.Tooling
import PathQuery.Proofs.Statement.Filtering
import PathQuery.Proofs.Session.Dialogue
import PathQuery.Proofs.Session.Closing
import PathQuery.Proofs.Session.Reading
import PathQuery.Proofs.Session.Repetition
import PathQuery.Proofs.Relation.Order
import PathQuery.Proofs.Statement.Draft
import PathQuery.Proofs.Statement.Strictness
import PathQuery.Proofs.Statement.Slicing
import PathQuery.Proofs.Session.Sending
import PathQuery.Proofs.Plan.Values
import PathQuery.Proofs.Plan.Interchange
import PathQuery.Proofs.Relation.Spelling
import PathQuery.Proofs.Derivation
import PathQuery.Proofs.Qualification
import PathQuery.Proofs.Like
import PathQuery.Proofs.Condition.Folding
import PathQuery.Proofs.Condition.Grouping
import PathQuery.Proofs.Relation.Bookkeeping
import PathQuery.Proofs.Relation.Distinctness
import PathQuery.Proofs.Relation.Refusal
import PathQuery.Proofs.Session.Streaming
import PathQuery.Proofs.Literal
import PathQuery.Proofs.Relation.Rounds
import PathQuery.Proofs.Session.Delivery
import PathQuery.Proofs.Condition.Places
import PathQuery.Proofs.Plan.References
