import FluxMarks.Command.Directory
import FluxMarks.Main
import FluxMarks.Proofs.Code.Spacing
import FluxMarks.Proofs.Record
import FluxMarks.Proofs.Resync
import FluxMarks.Proofs.Source.Reader
import FluxMarks.Proofs.Waveform
import FluxMarks.SelfCheck
import FluxMarks.Source.Script
import FluxMarks.Track
import FluxMarks.Waveform
import FluxMarks.Proofs.Sample
import FluxMarks.Proofs.SyncPlaces
import FluxMarks.Proofs.Source.Failure
import FluxMarks.Proofs.Source.Laziness
import FluxMarks.Proofs.EventStream
import FluxMarks.Proofs.Command.RecordFile
import FluxMarks.Proofs.Command.Directory
import FluxMarks.Proofs.Command.Session
import FluxMarks.Proofs.Check.Serial
import FluxMarks.Proofs.Check.Bursts
import FluxMarks.Proofs.Cells
import FluxMarks.Proofs.Command.Failure
import FluxMarks.Proofs.Dump.Reading
import FluxMarks.Proofs.Extension
import FluxMarks.Proofs.Check.Remainder
import FluxMarks.Proofs.Check.Window
import FluxMarks.Proofs.Check.Parity
import FluxMarks.Proofs.Track.Sampling
import FluxMarks.Proofs.Waveform.Reading
import FluxMarks.Proofs.Check.Doubles
import FluxMarks.Proofs.Code.Completion
import FluxMarks.Proofs.Command.Verdict
import FluxMarks.Proofs.Source.Log
import FluxMarks.Proofs.SelfCheck
