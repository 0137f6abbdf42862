import JvmStub.Main
import JvmStub.Stub.Chain
import JvmStub.Stub.Journal
import JvmStub.Proofs.Assembly.Retelling
import JvmStub.Proofs.ClassFile.Canonical
import JvmStub.Proofs.Stub.Independence
import JvmStub.Proofs.Stub.Metadata
import JvmStub.Proofs.Stub.Output
import JvmStub.Proofs.Event.Told
import JvmStub.Proofs.Stub.Skipping
import JvmStub.Proofs.Assembly.Normalisation
import JvmStub.Proofs.Stub.Stops
import JvmStub.Proofs.Stub.Errors
import JvmStub.Proofs.Pool.Additions
import JvmStub.Proofs.Stub.Additions
import JvmStub.Proofs.Stub.BrokenPools
import JvmStub.Proofs.Pool.Calls
import JvmStub.Proofs.Assembly.KeptBodies
import JvmStub.Proofs.Assembly.Bytecode
import JvmStub.Proofs.Assembly.Headers
import JvmStub.Proofs.Stub.Chain
import JvmStub.Proofs.Stub.Passage
import JvmStub.Proofs.Descriptor.Spelling
import JvmStub.Proofs.Event.Script
import JvmStub.Proofs.ClassFile.Truncation
import JvmStub.Proofs.Check.Lookups
import JvmStub.Proofs.Check.Words
import JvmStub.Proofs.Assembly.Disassembly
import JvmStub.Proofs.ClassFile.Payloads
import JvmStub.Proofs.Pool.Reuse
import JvmStub.Proofs.Descriptor.ClassNames
import JvmStub.Proofs.Descriptor.Bytes
