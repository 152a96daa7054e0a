import KernelProbe.Text.Hex
import KernelProbe.Text.Blank
import KernelProbe.Text.Kilobytes
import KernelProbe.Fault
import KernelProbe.Config
import KernelProbe.Address
import KernelProbe.Layout
import KernelProbe.Target
import KernelProbe.Value
import KernelProbe.Expression
import KernelProbe.Satp
import KernelProbe.TrapCause
import KernelProbe.Event
import KernelProbe.Traversal
import KernelProbe.Paging.Entry
import KernelProbe.Paging.Table
import KernelProbe.Paging.Walk
import KernelProbe.Paging.Range
import KernelProbe.Intrusive.Embedding
import KernelProbe.Debuggee
import KernelProbe.Paging.Dump
import KernelProbe.Allocator.Report
import KernelProbe.Allocator.Survey
import KernelProbe.Intrusive.Ring
import KernelProbe.Intrusive.HashTable
import KernelProbe.Intrusive.Entries
import KernelProbe.Intrusive.Catalogue
import KernelProbe.Intrusive.Listing
import KernelProbe.Backtrace.SavedFrame
import KernelProbe.Backtrace.Unwinder
import KernelProbe.Backtrace.Roster
import KernelProbe.Backtrace.Frame
import KernelProbe.Session.Command
import KernelProbe.Session.Basic
import KernelProbe.Image.Memory
import KernelProbe.Image.Basic
import KernelProbe.Image.Kernel
import KernelProbe.Proofs.Image.Samples
import KernelProbe.Proofs.Address.PageNumbers
import KernelProbe.Proofs.Traversal.Pulls
import KernelProbe.Proofs.Paging.Placement
import KernelProbe.Proofs.Paging.Steps
import KernelProbe.Proofs.Paging.Order
import KernelProbe.Proofs.Paging.Translation
import KernelProbe.Proofs.Paging.Tree
import KernelProbe.Proofs.Paging.Recursion
import KernelProbe.Proofs.Paging.DepthFirst
import KernelProbe.Proofs.Paging.Coverage
import KernelProbe.Proofs.Paging.Merging
import KernelProbe.Proofs.Paging.Union
import KernelProbe.Proofs.Paging.Canonical
import KernelProbe.Proofs.Paging.Runs
import KernelProbe.Proofs.Paging.Trail
import KernelProbe.Proofs.Intrusive.Places
import KernelProbe.Proofs.Intrusive.Rings
import KernelProbe.Proofs.Intrusive.Sweeps
import KernelProbe.Proofs.Intrusive.Display
import KernelProbe.Proofs.Session.Operations
import KernelProbe.Proofs.Session.PhysicalMode
import KernelProbe.Proofs.Paging.Agreement
import KernelProbe.Proofs.Session.Noninterference
import KernelProbe.Proofs.Intrusive.Registrations
import KernelProbe.Proofs.Intrusive.Buckets
import KernelProbe.Proofs.Session.Registering
import KernelProbe.Proofs.Intrusive.Circuits
import KernelProbe.Proofs.Intrusive.Separation
import KernelProbe.Proofs.Value.Numbers
import KernelProbe.Proofs.Value.Rows
import KernelProbe.Proofs.Value.Pointers
import KernelProbe.Proofs.Backtrace.SavedFrames
import KernelProbe.Proofs.Backtrace.ReturnAddress
import KernelProbe.Proofs.Backtrace.Restoring
import KernelProbe.Proofs.Backtrace.AskingOrder
import KernelProbe.Proofs.Intrusive.Endings
import KernelProbe.Proofs.Intrusive.Bounds
import KernelProbe.Proofs.Paging.Pieces
import KernelProbe.Proofs.Paging.Magnitudes
import KernelProbe.Proofs.Intrusive.Distances
import KernelProbe.Proofs.Intrusive.Children
import KernelProbe.Proofs.Allocator.Chains
import KernelProbe.Proofs.Allocator.Slots
import KernelProbe.Proofs.Allocator.Totals
import KernelProbe.Proofs.Allocator.Faults
import KernelProbe.Proofs.Backtrace.Relabelling
import KernelProbe.Proofs.Backtrace.Cause
import KernelProbe.Proofs.Session.Lines
import KernelProbe.Proofs.Value.Expressions
import KernelProbe.Proofs.Image.Regions
import KernelProbe.Proofs.Value.Elements
import KernelProbe.Proofs.Text.Hexadecimal
import KernelProbe.Proofs.Paging.Lines
import KernelProbe.Proofs.Paging.Fields
import KernelProbe.Proofs.Paging.Encoding
import KernelProbe.Proofs.Value.Readings
import KernelProbe.Proofs.Text.Rounding
import KernelProbe.Proofs.Allocator.Figures
import KernelProbe.Proofs.Target.Hosts
