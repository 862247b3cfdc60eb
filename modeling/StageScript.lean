import StageScript.Main
import StageScript.Proofs.Machine.Execution
import StageScript.Proofs.Machine.Field
import StageScript.Proofs.Machine.Written
import StageScript.Proofs.Machine.Operands
import StageScript.Proofs.Machine.WriteBack
import StageScript.Proofs.Compiler.Body
import StageScript.Proofs.Compiler.Sound
import StageScript.Proofs.Program.File
import StageScript.Proofs.Machine.Fetch
import StageScript.Proofs.Compiler.Dispatch
import StageScript.Proofs.Machine.Strictness
import StageScript.Proofs.Compiler.Hygiene
import StageScript.Proofs.Compiler.Binding
import StageScript.Proofs.Compiler.Loading
import StageScript.Proofs.Compiler.Placement
import StageScript.Proofs.Compiler.Refinement
import StageScript.Proofs.Compiler.Appending
import StageScript.Proofs.Compiler.Sequence
import StageScript.Proofs.Program.Format
import StageScript.Proofs.Engine.Sound
import StageScript.Proofs.Engine.DrawLists
import StageScript.Proofs.Compiler.Reuse
import StageScript.Proofs.Machine.Leftovers
import StageScript.Proofs.Engine.Naming
import StageScript.Proofs.Compiler.Skipping
import StageScript.Proofs.Machine.Deformation
import StageScript.Proofs.Compiler.CaseRange
import StageScript.Proofs.Compiler.Rereading
import StageScript.Proofs.Compiler.Transparency
import StageScript.Proofs.Source.Integer
import StageScript.Proofs.Source.Rendering
import StageScript.Proofs.Source.Stripping
import StageScript.Proofs.Source.ByteReader
import StageScript.Proofs.Compiler.Infix
import StageScript.Proofs.Compiler.Reassembly
import StageScript.Proofs.Scene.Playback
import StageScript.Proofs.Machine.Lens
import StageScript.Proofs.Engine.Slices
import StageScript.Proofs.Machine.Digits
import StageScript.Proofs.Machine.Temporary
import StageScript.Proofs.Engine.Rebuild
import StageScript.Proofs.Engine.Files
import StageScript.Proofs.Math.Matrix
import StageScript.Proofs.Math.Angle
import StageScript.Proofs.Machine.Timeless
import StageScript.Proofs.Engine.Limit
import StageScript.Engine.Exact
import StageScript.Proofs.Machine.Coordinates
import StageScript.Proofs.Machine.Headroom
import StageScript.Proofs.Engine.Overflow
import StageScript.Proofs.Engine.Failures
import StageScript.Proofs.Program.Runs
import StageScript.Proofs.Program.NameTable
