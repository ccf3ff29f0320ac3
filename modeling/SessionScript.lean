import SessionScript.Files.Tree
import SessionScript.Main
import SessionScript.Proofs.Optimizer.Meaning
import SessionScript.Proofs.Optimizer.Runs
import SessionScript.Proofs.Script.Fills
import SessionScript.Proofs.Script.Scopes
import SessionScript.Proofs.Script.Sealing
import SessionScript.Proofs.Optimizer.NormalForm
import SessionScript.Proofs.Json.Numbers
import SessionScript.Proofs.Json.Strings
import SessionScript.Proofs.Json.Records
import SessionScript.Proofs.Json.Printing
import SessionScript.Proofs.Store.Truncation
import SessionScript.Proofs.Script.Dialects
import SessionScript.Proofs.Script.Positions
import SessionScript.Proofs.Script.LineBreaks
import SessionScript.Proofs.Store.NoOverwrite
import SessionScript.Proofs.Script.Popups
import SessionScript.Proofs.Script.PageSpelling
import SessionScript.Proofs.Optimizer.Segments
import SessionScript.Proofs.Script.FirstUse
import SessionScript.Proofs.Script.Receivers
import SessionScript.Proofs.Script.HeldKeys
import SessionScript.Proofs.Script.Silent
import SessionScript.Proofs.Script.Wrapping
import SessionScript.Proofs.Script.Spacing
import SessionScript.Proofs.Optimizer.Barriers
import SessionScript.Proofs.Script.Escaping
import SessionScript.Proofs.Store.LineEnds
import SessionScript.Proofs.Optimizer.Neighbours
import SessionScript.Proofs.Validation
import SessionScript.Proofs.Script.TabSpelling
import SessionScript.Proofs.Fault
