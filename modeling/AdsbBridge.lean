import AdsbBridge.Agreement.Run
import AdsbBridge.AircraftCap
import AdsbBridge.Checksum
import AdsbBridge.ChunkIndependence
import AdsbBridge.CleanFrames
import AdsbBridge.Coverage
import AdsbBridge.Cpr.Refinement
import AdsbBridge.Cpr.RoundTrip
import AdsbBridge.Expiry
import AdsbBridge.FieldAgreement
import AdsbBridge.Freshness
import AdsbBridge.Globe
import AdsbBridge.IqCarry
import AdsbBridge.Isolation
import AdsbBridge.Native.Delivered
import AdsbBridge.Native.ReadBack
import AdsbBridge.Native.Received
import AdsbBridge.NewestReport
import AdsbBridge.Pruning
import AdsbBridge.Readsb.IcaoHistory
import AdsbBridge.Readsb.Replies
import AdsbBridge.ReadsbChunks
import AdsbBridge.Reset
import AdsbBridge.Service.Backoff
import AdsbBridge.Service.Broadcast
import AdsbBridge.Service.Client
import AdsbBridge.Service.Current
import AdsbBridge.Service.Feed
import AdsbBridge.Service.Handover
import AdsbBridge.Service.Http
import AdsbBridge.Service.Release
import AdsbBridge.Service.Response
import AdsbBridge.Service.Restart
import AdsbBridge.Service.Retry
import AdsbBridge.Service.Server
import AdsbBridge.Service.Survivors
import AdsbBridge.Slicing
import AdsbBridge.Store.Ledger
import AdsbBridge.Store.Polling
