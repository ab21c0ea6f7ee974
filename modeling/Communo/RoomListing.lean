import Communo.ReplySizes
import Communo.ServiceHistory

/-! The list of rooms. Whoever asks for it gets a line for every room that has a
row or that somebody has asked for before. -/

namespace Communo.RoomListing
open Lib.ByteCodec Lib.CheckedMemory Lib.Runs Lib.Transducers Protocol NumParser Chat Session Handlers MainLoop Dispatch
  Transitions Survival Writes Framing RoomTable RoomPassword SessionTable ReplySizes ChatService Refinement ServiceRuns
  ServiceLaws ServiceHistory

def wanted : Query → Option Byte
  | .join roomID _ => some roomID
  | _ => none

/-- No name has a NUL in it, and no hash begins with one. -/
structure Clean (rows : List Row) : Prop where
  names : ∀ row ∈ rows, ∀ name, row.name = some name → 0 ∉ name
  hashes : ∀ row ∈ rows, ∀ stored, row.passwordHash = some stored → stored.head? ≠ some 0

section Queries
variable {host : Host} {packet : List Byte} {query : Query}

end Queries

section Reactions
variable {host : Host} {service next : Service}

end Reactions

section Entries
variable {rows : List Row}

end Entries

end Communo.RoomListing
