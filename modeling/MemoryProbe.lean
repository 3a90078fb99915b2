import MemoryProbe.Heap.Staged
import MemoryProbe.Main
import MemoryProbe.Search.Pool
import MemoryProbe.Target.Staged
import MemoryProbe.Text.Quantity
import MemoryProbe.Unavailable
import MemoryProbe.Verbosity
import MemoryProbe.Proofs.Schedule
import MemoryProbe.Proofs.Budget.Admission
import MemoryProbe.Proofs.Budget.Gate
import MemoryProbe.Proofs.Pool.Turn
import MemoryProbe.Proofs.Pool.Wakeup
import MemoryProbe.Proofs.Pool.Progress
import MemoryProbe.Proofs.Occurrences
import MemoryProbe.Proofs.Pool.Blockwise
import MemoryProbe.Proofs.Pool.Accounts
import MemoryProbe.Proofs.Pool.Outcome
import MemoryProbe.Proofs.Pool.Faultless
import MemoryProbe.Proofs.Search.Reading
import MemoryProbe.Proofs.Region.Chart
import MemoryProbe.Proofs.Region.Reach
import MemoryProbe.Proofs.Region.Memory
import MemoryProbe.Proofs.Search.Merging
import MemoryProbe.Proofs.Search.Reporting
import MemoryProbe.Proofs.Region.Places
import MemoryProbe.Proofs.Search.Listing
import MemoryProbe.Proofs.Pool.Signal
import MemoryProbe.Proofs.Pool.Refusal
import MemoryProbe.Proofs.Search.Overlap
import MemoryProbe.Proofs.Pool.Findings
import MemoryProbe.Proofs.Search.Counting
import MemoryProbe.Proofs.Region.Asking
import MemoryProbe.Proofs.Region.Mappings
import MemoryProbe.Proofs.Region.Tiling
import MemoryProbe.Proofs.Heap.Laying
import MemoryProbe.Proofs.Region.Images
import MemoryProbe.Proofs.Kernel.Listing
import MemoryProbe.Proofs.Heap.Spanning
import MemoryProbe.Proofs.Heap.Visiting
import MemoryProbe.Proofs.Heap.Measuring
import MemoryProbe.Proofs.Heap.Extents
import MemoryProbe.Proofs.Heap.Varying
import MemoryProbe.Proofs.Search.Grouping
import MemoryProbe.Proofs.Following
import MemoryProbe.Proofs.Mirroring
import MemoryProbe.Proofs.Reciting
import MemoryProbe.Proofs.Heap.Reciting
import MemoryProbe.Proofs.Heap.Retiming
import MemoryProbe.Proofs.Pool.Mirroring
import MemoryProbe.Proofs.Search.Ordering
import MemoryProbe.Proofs.Search.Reciting
import MemoryProbe.Proofs.Truncating
import MemoryProbe.Proofs.Kernel.Viewing
import MemoryProbe.Proofs.Shell.Replying
import MemoryProbe.Proofs.Shell.Isolation
import MemoryProbe.Proofs.Text.Decoding
import MemoryProbe.Proofs.Shell.Dispatching
import MemoryProbe.Proofs.Shell.Notices
import MemoryProbe.Proofs.Shell.Conversation
import MemoryProbe.Proofs.Search.Complaining
import MemoryProbe.Proofs.Pool.Telling
import MemoryProbe.Proofs.Search.Telling
import MemoryProbe.Proofs.Region.Kinds
import MemoryProbe.Proofs.Search.Admitting
import MemoryProbe.Proofs.Pool.Joining
import MemoryProbe.Proofs.Kernel.Status
import MemoryProbe.Proofs.Kernel.Naming
import MemoryProbe.Proofs.Search.Making
import MemoryProbe.Proofs.Search.Dividing
import MemoryProbe.Proofs.Search.Restarting
import MemoryProbe.Proofs.Search.Owning
import MemoryProbe.Proofs.Region.Seeking
import MemoryProbe.Proofs.Region.Hulls
import MemoryProbe.Proofs.Text.Places
import MemoryProbe.Proofs.Kernel.Slicing
import MemoryProbe.Proofs.Kernel.Skipping
import MemoryProbe.Proofs.Kernel.Stacks
import MemoryProbe.Proofs.Kernel.Probing
import MemoryProbe.Proofs.Text.Figures
import MemoryProbe.Proofs.Shell.Wording
import MemoryProbe.Proofs.Search.Spelling
import MemoryProbe.Proofs.Shell.Refusing
import MemoryProbe.Proofs.Json.Grammar
import MemoryProbe.Proofs.Json.Skipping
import MemoryProbe.Proofs.Json.Reading
import MemoryProbe.Proofs.Settings.Values
import MemoryProbe.Proofs.Settings.Objects
import MemoryProbe.Proofs.Settings.Layers
