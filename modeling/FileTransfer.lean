import FileTransfer.Archive.ArchiveRoundTrip
import FileTransfer.Archive.NameLookup
import FileTransfer.Archive.NameTableLoad
import FileTransfer.Functions.AppendToZip
import FileTransfer.Functions.ArchiveHandles
import FileTransfer.Functions.CreateZip
import FileTransfer.Functions.DownloadFile
import FileTransfer.Functions.DownloadFiles
import FileTransfer.Functions.ListNewFiles
import FileTransfer.Functions.RemoteFile
import FileTransfer.OldProgram.Accumulation
import FileTransfer.Pipeline.AtMostOnce
import FileTransfer.Pipeline.BoundedArchive
import FileTransfer.Pipeline.Delivery
import FileTransfer.Pipeline.Encryption
import FileTransfer.Pipeline.HandOff
import FileTransfer.Pipeline.MissedFiles
import FileTransfer.Pipeline.NewerVersions
import FileTransfer.Pipeline.PendingFiles
import FileTransfer.Pipeline.SameKey
import FileTransfer.Pipeline.SessionHandles
import FileTransfer.Pipeline.StopTogether
import FileTransfer.Pipeline.UploadIntegrity
