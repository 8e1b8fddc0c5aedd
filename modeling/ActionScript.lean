import ActionScript.Heap.Lemmas
import ActionScript.Main
import ActionScript.Movie.HostClass
import ActionScript.Proofs.Session.Reached
import ActionScript.Proofs.Session.Storage
import ActionScript.Proofs.Session.Renaming
import ActionScript.Proofs.Reuse
import ActionScript.Proofs.Evaluation
import ActionScript.Proofs.Number
import ActionScript.Proofs.Write
import ActionScript.Proofs.ArrayLength
import ActionScript.Proofs.Session.Past
import ActionScript.Proofs.Session.Tending
import ActionScript.Proofs.Session.ArrayLength
import ActionScript.Proofs.Sharing
import ActionScript.Proofs.FailedWrite
import ActionScript.Proofs.LowerCase
import ActionScript.Proofs.ScriptKey
import ActionScript.Proofs.NameCache
import ActionScript.Proofs.Session.Spelling
import ActionScript.Proofs.Broadcast
import ActionScript.Proofs.Pins
import ActionScript.Proofs.Relink
import ActionScript.Proofs.Watcher
import ActionScript.Proofs.HostMembers
import ActionScript.Proofs.Session.Observers
import ActionScript.Proofs.Session.Protection
import ActionScript.Proofs.Session.StaticState
import ActionScript.Proofs.Command.Lines
import ActionScript.Proofs.ArrayText
import ActionScript.Proofs.ArrayJoin
import ActionScript.Proofs.ArrayStack
import ActionScript.Proofs.ChainKeys
import ActionScript.Proofs.Reentry
import ActionScript.Proofs.Trend.Builtin
import ActionScript.Proofs.Naming.Movie
import ActionScript.Proofs.Naming.Machine
import ActionScript.Proofs.Naming.History
import ActionScript.Proofs.ArgumentList
import ActionScript.Proofs.Attributes
import ActionScript.Proofs.NumberText
import ActionScript.Proofs.WrittenDigits
import ActionScript.Proofs.NumericGrammar
import ActionScript.Proofs.Word
import ActionScript.Proofs.Radix
import ActionScript.Proofs.TextMethods
import ActionScript.Proofs.DateText
import ActionScript.Proofs.Session.Random
import ActionScript.Proofs.IndexKey
