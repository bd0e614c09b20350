import Zizium.Checksums
import Zizium.Crt.Process
import Zizium.Executive.AddressSpaceSearch
import Zizium.Executive.ChannelRuns
import Zizium.Executive.IdentityCanonical
import Zizium.Executive.IdentityStore
import Zizium.Executive.ReadyQueues
import Zizium.Executive.ReceiveCall
import Zizium.Executive.ServiceOrder
import Zizium.Executive.ServiceParsing
import Zizium.Executive.ServiceSupervision
import Zizium.Fs.Authorisation
import Zizium.Fs.DirectoryMap
import Zizium.Fs.FileMap
import Zizium.Fs.FreeSpace
import Zizium.Fs.RoundTrips
import Zizium.Fs.VolumeRuns
import Zizium.Io.Gpt
import Zizium.Mm.PmmSearch
import Zizium.Mm.PoolRuns
import Zizium.Luma.Tokeniser
import Zizium.Unicode.Paths
