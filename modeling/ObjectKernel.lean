import ObjectKernel.Main
import ObjectKernel.Proofs.StartOnce
import ObjectKernel.Proofs.JoinedThreads
import ObjectKernel.Proofs.ProcessSettings
import ObjectKernel.Proofs.WriteOnce
import ObjectKernel.Proofs.ReportNormalForm
import ObjectKernel.Proofs.DefaultEquality
import ObjectKernel.Proofs.SelectorNumbers
import ObjectKernel.Proofs.CurrentThreads
import ObjectKernel.Proofs.SafeCalls
import ObjectKernel.Proofs.RawThreads
import ObjectKernel.Proofs.NearestManifest
import ObjectKernel.Proofs.BufferGrowth
import ObjectKernel.Proofs.AppendOutcomes
import ObjectKernel.Proofs.Concatenation
import ObjectKernel.Proofs.Constructions
import ObjectKernel.Proofs.DemoBarrier
import ObjectKernel.Proofs.Timeouts
