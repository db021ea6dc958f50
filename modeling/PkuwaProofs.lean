import PkuwaProofs.Basic
import PkuwaProofs.Register
import PkuwaProofs.HostCall
import PkuwaProofs.Registry
import PkuwaProofs.Native
import PkuwaProofs.Guest.State
import PkuwaProofs.Guest.Api
import PkuwaProofs.Codec
import PkuwaProofs.Guest.Step
import PkuwaProofs.Guest.Memory
import PkuwaProofs.Guest.Invariants
import PkuwaProofs.Guest.CallGate
import PkuwaProofs.Guest.Rights
import PkuwaProofs.Guest.Grants
import PkuwaProofs.Transport
import PkuwaProofs.Overflow
import PkuwaProofs.Guest.Teardown
import PkuwaProofs.Guest.Lifecycle
import PkuwaProofs.Guest.Macros
import PkuwaProofs.Guest.Brackets
import PkuwaProofs.Guest.Protocol
import PkuwaProofs.Builds
